import CodeAtlas.Text.Printable

/-!
# Quoted texts

A text between quotation marks on one line. The mark is the apostrophe, unless the text holds
apostrophes and no double quotes. The mark and the backslash are escaped, the usual controls have
letters, and what is not printable is written by its code point, with two, four or eight digits.

Texts are given by code points, as a string literal of a program may hold half a surrogate pair.
-/

namespace CodeAtlas.Text.Quoted

/-- The lower-case hexadecimal digits of a number, with zeros up to a width. -/
def hex (width n : Nat) : List Char :=
  let digits := Nat.toDigits 16 n
  List.replicate (width - digits.length) '0' ++ digits

/-- The quotation mark for a text. -/
def markFor (points : List Nat) : Char :=
  if points.contains '\''.toNat && !points.contains '"'.toNat then '"' else '\''

/-- One character between quotation marks. -/
def escape (mark : Char) (point : Nat) : List Char :=
  if point = mark.toNat || point = '\\'.toNat then ['\\', Char.ofNat point]
  else if point = '\t'.toNat then ['\\', 't']
  else if point = '\n'.toNat then ['\\', 'n']
  else if point = '\r'.toNat then ['\\', 'r']
  else if isPrintable point then [Char.ofNat point]
  else if point < 0x100 then '\\' :: 'x' :: hex 2 point
  else if point < 0x10000 then '\\' :: 'u' :: hex 4 point
  else '\\' :: 'U' :: hex 8 point

/-- A text between quotation marks. -/
def quotePoints (points : List Nat) : List Char :=
  let mark := markFor points
  mark :: points.flatMap (escape mark) ++ [mark]

def quote (text : String) : String :=
  String.ofList (quotePoints (text.toList.map Char.toNat))

/-- One byte between quotation marks: only ASCII is shown as itself. -/
def escapeByte (mark : Char) (byte : Nat) : List Char :=
  if byte = mark.toNat || byte = '\\'.toNat then ['\\', Char.ofNat byte]
  else if byte = '\t'.toNat then ['\\', 't']
  else if byte = '\n'.toNat then ['\\', 'n']
  else if byte = '\r'.toNat then ['\\', 'r']
  else if 0x20 ≤ byte && byte < 0x7f then [Char.ofNat byte]
  else '\\' :: 'x' :: hex 2 byte

/-- Bytes between quotation marks, after the letter that tells them from a text. -/
def quoteBytes (bytes : List Nat) : List Char :=
  let mark := markFor bytes
  'b' :: mark :: bytes.flatMap (escapeByte mark) ++ [mark]

end CodeAtlas.Text.Quoted
