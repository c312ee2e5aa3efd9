import CodeAtlas.Text.Blank
import CodeAtlas.Text.CharacterName.Table
import CodeAtlas.Text.Packed
import CodeAtlas.Text.Ranges

/-!
# Names of characters

The character with a name, as of version 14 of the standard. Most names stand in a table. Names of
syllables and of unified ideographs follow rules, and so do the names of a few families that end in
the code point.

In the table the names follow one another in the order of their code points. Each begins as the name
before it does up to its last word. Every `<` goes back one word more, and a small letter, which no
name holds, says how many further letters the two names share. What is left of the name follows. A
plus sign starts the number of code points that are passed over, in base 18 with the small letters,
and a point ends it. An equals sign goes back to the first code point, for further names of
characters: of controls that have no other, short ones, and those that correct a wrong one.
-/

namespace CodeAtlas.Text

namespace CharacterName

/-! ## The table -/

/-- What a reader of a table is at. -/
inductive Phase where
  /-- In the number of code points that are passed over. -/
  | gap
  /-- In what a name shares with the one before it. -/
  | shared
  /-- In the rest of a name. -/
  | rest
  deriving DecidableEq

def Phase.number : Phase → Nat
  | gap => 0
  | shared => 1
  | rest => 2

/-- How far the search for a name has come: the code point at hand, the number of code points that
are passed over, the name before it, how many of its characters are shared, the rest of the name at
hand in reverse order, and the code point that was found. -/
structure Search where
  phase : Phase
  point : Nat
  gap : Nat
  previous : List Char
  shared : Nat
  rest : List Char
  found : Option Nat

def Search.start : Search :=
  ⟨.gap, 0, 0, [], 0, [], none⟩

def lastWordStart (text : List Char) : Nat :=
  text.length - (text.reverse.takeWhile (· ≠ ' ')).length

/-- A word of a text, given the number of words before it. -/
def wordAt : Nat → List Char → List Char
  | 0, text => text.takeWhile (· ≠ ' ')
  | i + 1, text => wordAt i ((text.dropWhile (· ≠ ' ')).drop 1)

/-- The name at hand, as far as it is known. -/
def Search.name (s : Search) : List Char :=
  s.previous.take s.shared ++ s.rest.reverse

/-- Ends the name at hand, if there is one. -/
def Search.finish (wanted : List Char) (s : Search) : Search :=
  if s.phase = .rest then
    { s with
      phase := .shared, point := s.point + 1, previous := s.name, shared := lastWordStart s.name
      rest := [], found := if s.name == wanted then some s.point else s.found }
  else s

/-- Reads one character of a table. -/
def Search.step (wanted : List Char) (s : Search) (c : Char) : Search :=
  if c = '+' then { s.finish wanted with phase := .gap, gap := 0 }
  else if c = '.' then { s with phase := .shared, point := s.point + s.gap }
  else if c = '=' then { s.finish wanted with point := 0 }
  else if c = '<' then
    let s := s.finish wanted
    { s with shared := lastWordStart (s.previous.take (s.shared - 1)) }
  else if 'a' ≤ c && c ≤ 'z' then
    let n := c.toNat - 'a'.toNat
    if s.phase = .gap then { s with gap := s.gap * 18 + n }
    else
      let s := s.finish wanted
      { s with phase := .rest, shared := s.shared + n }
  else { s with rest := c :: s.rest }

/-- What counts for the next character of a table: the latest characters, the last words of the name
at hand, its first word and the number of its words, and the word at the same place in the name
before. -/
def Search.outlook (s : Search) (recent : List Char) : Packed.Outlook :=
  let phase := Char.ofNat s.phase.number
  let name := s.name
  let words := name.count ' '
  let word := wordAt 0 name.reverse
  let before := wordAt 1 name.reverse
  let former := wordAt words s.previous
  let next := (if word.reverse.isPrefixOf former then '1' else '0') :: (former.drop word.length).take 1
  ⟨[recent.take 3, recent.take 6, phase :: word, phase :: word ++ '/' :: former,
      phase :: Char.ofNat words :: recent.take 1, recent.take 2 ++ wordAt 0 name,
      phase :: next ++ recent.take 1, phase :: Char.ofNat word.length :: before],
    [phase :: word ++ ' ' :: before], (s.phase.number * 8 + min 7 words) * 16 + min 15 word.length⟩

def format : Packed.Format Search where
  alphabet := "ABCDEFGHIJKLMNOPQRSTUVWXYZ -0123456789<+.=abcdefghijklmnopqr".toList
  start := .start
  step := Search.step []
  outlook := Search.outlook

def table : Thunk (List Char) :=
  .mk fun _ => Packed.unpack format 342859 packedTable

/-- The code point of a name in the table. -/
def searchTable (wanted : List Char) : Option Nat :=
  ((table.get.foldl (Search.step wanted) .start).finish wanted).found

/-! ## Families -/

/-- A number in base sixteen with capital letters, of four digits or more. -/
def hexName (point : Nat) : List Char :=
  let digits := (Nat.toDigits 16 point).map Char.toUpper
  List.replicate (4 - digits.length) '0' ++ digits

/-- The families of names that end in the code point. -/
def families : List (String × Ranges) :=
  [("CJK COMPATIBILITY IDEOGRAPH", #[(0xf900, 0xfa6d), (0xfa70, 0xfad9), (0x2f800, 0x2fa1d)]),
    ("KHITAN SMALL SCRIPT CHARACTER", #[(0x18b00, 0x18cd5)]),
    ("NUSHU CHARACTER", #[(0x1b170, 0x1b2fb)])]

def ideographs : Ranges :=
  #[(0x3400, 0x4dbf), (0x4e00, 0x9fff), (0x20000, 0x2a6df), (0x2a700, 0x2b738), (0x2b740, 0x2b81d),
    (0x2b820, 0x2cea1), (0x2ceb0, 0x2ebe0), (0x30000, 0x3134a)]

/-- The number that capital digits in base sixteen stand for. -/
def hexValue? (digits : List Char) : Option Nat :=
  digits.foldlM
    (fun n c =>
      if '0' ≤ c && c ≤ '9' then some (n * 16 + (c.toNat - '0'.toNat))
      else if 'A' ≤ c && c ≤ 'F' then some (n * 16 + (c.toNat - 'A'.toNat + 10))
      else none)
    0

def member? (family : String) (members : Ranges) (name : List Char) : Option Nat :=
  let start := family.toList ++ ['-']
  if start.isPrefixOf name then
    (hexValue? (name.drop start.length)).filter fun point =>
      members.contains point && hexName point == name.drop start.length
  else none

/-! ## Syllables -/

def leading : List String :=
  ["G", "GG", "N", "D", "DD", "R", "M", "B", "BB", "S", "SS", "", "J", "JJ", "C", "K", "T", "P",
    "H"]

def vowels : List String :=
  ["A", "AE", "YA", "YAE", "EO", "E", "YEO", "YE", "O", "WA", "WAE", "OE", "YO", "U", "WEO", "WE",
    "WI", "YU", "EU", "YI", "I"]

def trailing : List String :=
  ["", "G", "GG", "GS", "N", "NJ", "NH", "D", "L", "LG", "LM", "LB", "LS", "LT", "LP", "LH", "M",
    "B", "BS", "S", "SS", "NG", "J", "C", "K", "T", "P", "H"]

/-- The number of the longest of some texts that a text begins with, and what follows it. -/
def longest? (texts : List String) (text : List Char) : Option (Nat × List Char) :=
  texts.zipIdx.foldl
    (fun best (candidate, i) =>
      let cs := candidate.toList
      if cs.isPrefixOf text then
        match best with
        | some (_, rest) =>
          if text.length - rest.length < cs.length then some (i, text.drop cs.length) else best
        | none => some (i, text.drop cs.length)
      else best)
    none

/-- The syllable with a name, without the words before it. -/
def syllable? (name : List Char) : Option Nat := do
  let (l, rest) ← longest? leading name
  let (v, rest) ← longest? vowels rest
  let (t, rest) ← longest? trailing rest
  if rest.isEmpty then return 0xac00 + (l * 21 + v) * 28 + t else none

end CharacterName

open CharacterName in
/-- The code point of the character with a name. Case does not matter, except in the names that
follow rules. -/
def characterNamed? (name : List Char) : Option Nat :=
  let syllables := "HANGUL SYLLABLE ".toList
  let unified := "CJK UNIFIED IDEOGRAPH".toList
  if syllables.isPrefixOf name then syllable? (name.drop syllables.length)
  else if (unified ++ ['-']).isPrefixOf name then
    member? (String.ofList unified) ideographs name
  else
    let wanted := name.map Char.toUpper
    (families.findSome? fun (family, members) => member? family members wanted).orElse fun _ =>
      searchTable wanted

end CodeAtlas.Text
