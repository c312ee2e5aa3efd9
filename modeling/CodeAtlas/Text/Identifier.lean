import CodeAtlas.Text.Table
import CodeAtlas.Text.Word

/-!
# Identifier characters

The characters that may begin and continue an identifier, as of version 14 of the standard's
identifier profile, with the underscore as a letter.
-/

namespace CodeAtlas.Text

/-- Outside ASCII, what words are made of and yet begins no identifier: digits and other numbers,
and some letters that stand for several characters. -/
def notBeginningRanges : Thunk Ranges :=
  .mk fun _ => .ofGaps (Table.entries 9).flatten

/-- Outside ASCII, what may begin an identifier though no word is made of it. -/
def otherBeginningRanges : Ranges :=
  #[(0x1885, 0x1886), (0x2118, 0x2118), (0x212e, 0x212e)]

/-- Outside ASCII, what may stand in an identifier but not begin it: marks, digits and connectors. -/
def continuingRanges : Thunk Ranges :=
  .mk fun _ => .ofGaps (Table.entries 10).flatten

def beginsIdentifier (c : Char) : Bool :=
  if c.toNat < 0x80 then isAsciiLetter c || c == '_'
  else
    isWord c && !notBeginningRanges.get.contains c.toNat || otherBeginningRanges.contains c.toNat

def continuesIdentifier (c : Char) : Bool :=
  if c.toNat < 0x80 then isAsciiWord c
  else beginsIdentifier c || continuingRanges.get.contains c.toNat

end CodeAtlas.Text
