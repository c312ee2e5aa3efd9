/-!
# Blank characters

Which characters count as white space, and the trimming and splitting built on that. Besides the
space and the ASCII controls from tab to carriage return, the four information separators, the next
line control and every space of the Unicode space separator class are blank.
-/

namespace CodeAtlas.Text

def isBlank (c : Char) : Bool :=
  let n := c.toNat
  (0x9 ≤ n && n ≤ 0xd) || (0x1c ≤ n && n ≤ 0x20) || n == 0x85 || n == 0xa0 || n == 0x1680 ||
    (0x2000 ≤ n && n ≤ 0x200a) || n == 0x2028 || n == 0x2029 || n == 0x202f || n == 0x205f ||
    n == 0x3000

/-- Removes the characters of a class from both ends. -/
def trimBoth (drops : Char → Bool) (text : List Char) : List Char :=
  ((text.dropWhile drops).reverse.dropWhile drops).reverse

/-- Removes white space from both ends. -/
def trim (text : List Char) : List Char :=
  trimBoth isBlank text

/-- Collects the words of a text; `word` holds the letters of the word begun, last letter first. -/
def wordsFrom (word : List Char) : List Char → List (List Char)
  | [] => if word.isEmpty then [] else [word.reverse]
  | c :: rest =>
    if isBlank c then
      if word.isEmpty then wordsFrom [] rest else word.reverse :: wordsFrom [] rest
    else wordsFrom (c :: word) rest

/-- The words of a text: its longest stretches without white space. -/
def words (text : List Char) : List (List Char) :=
  wordsFrom [] text

/-- Cuts a text at every occurrence of one character; there is one piece more than occurrences. -/
def splitAt (separator : Char) : List Char → List (List Char)
  | [] => [[]]
  | c :: rest =>
    if c = separator then [] :: splitAt separator rest
    else
      match splitAt separator rest with
      | [] => [[c]]
      | piece :: pieces => (c :: piece) :: pieces

def beginsWith (start : List Char) (text : List Char) : Bool :=
  start.isPrefixOf text

def occursIn (part : List Char) : List Char → Bool
  | [] => part.isEmpty
  | c :: rest => beginsWith part (c :: rest) || occursIn part rest

/-- Cuts a text at every occurrence of another, from left to right; `skip` is how much of the
occurrence before is still to be passed, and `piece` holds the piece begun, last character first. -/
def splitTextFrom (separator : List Char) (skip : Nat) (piece : List Char) :
    List Char → List (List Char)
  | [] => [piece.reverse]
  | c :: rest =>
    if 0 < skip then splitTextFrom separator (skip - 1) piece rest
    else if separator.isPrefixOf (c :: rest) then
      piece.reverse :: splitTextFrom separator (separator.length - 1) [] rest
    else splitTextFrom separator 0 (c :: piece) rest

/-- Cuts a text at every occurrence of another that is not empty. -/
def splitText (separator text : List Char) : List (List Char) :=
  splitTextFrom separator 0 [] text

/-- The pieces between the commas of a text, trimmed, without the blank ones. -/
def commaList (text : List Char) : List (List Char) :=
  ((splitAt ',' text).map trim).filter (fun piece => !piece.isEmpty)

def joinWith (separator : List Char) : List (List Char) → List Char
  | [] => []
  | [piece] => piece
  | piece :: pieces => piece ++ separator ++ joinWith separator pieces

end CodeAtlas.Text
