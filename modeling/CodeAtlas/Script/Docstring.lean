import CodeAtlas.Script.Syntax
import CodeAtlas.Text.Blank

/-!
# Docstrings

A text that stands first in a body documents it. It is shown without tabs, without the margin that
all its lines after the first share, and without empty lines at either end.
-/

namespace CodeAtlas.Script

/-- Replaces tabs by blanks up to the next multiple of eight columns. -/
def expandTabs (column : Nat) : List Char → List Char
  | [] => []
  | '\t' :: rest =>
    let width := 8 - column % 8
    List.replicate width ' ' ++ expandTabs (column + width) rest
  | c :: rest =>
    c :: expandTabs (if c = '\n' || c = '\r' then 0 else column + 1) rest

/-- The width of the margin of a line; an empty line has none. -/
def marginOf (line : List Char) : Option Nat :=
  let content := line.dropWhile Text.isBlank
  if content.isEmpty then none else some (line.length - content.length)

def sharedMargin (lines : List (List Char)) : Nat :=
  (lines.filterMap marginOf).min?.getD 0

def tidy (text : List Char) : List Char :=
  let lines :=
    match Text.splitAt '\n' (expandTabs 0 text) with
    | [] => []
    | first :: others =>
      first.dropWhile Text.isBlank :: others.map (List.drop (sharedMargin others))
  let lines := (lines.reverse.dropWhile List.isEmpty).reverse
  Text.joinWith ['\n'] (lines.dropWhile List.isEmpty)

/-- A code point as a character; half a surrogate pair is shown by the replacement character. -/
def shownPoint (point : Nat) : Char :=
  if point.isValidChar then Char.ofNat point else '\ufffd'

def docstring? : List Stmt → Option String
  | .expression (.constant _ (.text points _)) :: _ =>
    some (String.ofList (tidy (points.map shownPoint)))
  | _ => none

end CodeAtlas.Script
