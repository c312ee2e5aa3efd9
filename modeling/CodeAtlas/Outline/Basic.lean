import CodeAtlas.Json.Basic
import CodeAtlas.Pattern.Search
import CodeAtlas.Text.Lines

/-!
# Outlines

What the outlines of several languages share: functions with their parameters, comments, and the
patterns for declarations that stand at the start of a line.
-/

namespace CodeAtlas.Outline

open Pattern Text

/-- A declared function: its name and its parameters as written. -/
structure Function where
  name : String
  params : List String
  deriving DecidableEq, Repr

def Function.toJson (f : Function) : Json :=
  .object [("name", .text f.name), ("params", .texts f.params)]

/-- A declared function with what it returns. -/
structure Prototype where
  name : String
  result : String
  params : List String
  deriving DecidableEq, Repr

def Prototype.toJson (p : Prototype) : Json :=
  .object [("name", .text p.name), ("return", .text p.result), ("params", .texts p.params)]

/-- The texts that a group remembers in all matches. -/
def collectTexts (p : Pattern) (index : Nat) (code : List Char) : List String :=
  (p.collect index code).map String.ofList

def collectWhole (p : Pattern) (code : List Char) : List String :=
  (p.collectAll code).map String.ofList

/-- The parameters in a text: what stands between commas, trimmed, if anything. -/
def paramList (text : List Char) : List String :=
  (commaList text).map String.ofList

/-- The functions whose name a pattern remembers as group 1 and whose parameters as group 2. -/
def collectFunctions (p : Pattern) (code : List Char) : List Function :=
  (p.findAll code).map fun m => ⟨String.ofList (m.group 1), paramList (m.group 2)⟩

/-! ## Shared patterns -/

/-- What may precede a declaration on its line. White space runs over blank lines as well. -/
def margin : Pattern :=
  lineStart ++ blanks

/-- A capital letter and at least one more ASCII word character. -/
def capitalName : Pattern :=
  one isCapital ++ many1 isAsciiWord

/-- A capital letter and at least one more word character. -/
def capitalWord : Pattern :=
  one isCapital ++ many1 isWord

/-- A declaration `keyword Name` at the margin; the name is group 1. -/
def declares (keyword : String) (name : Pattern) : Pattern :=
  margin ++ lit keyword ++ blanks1 ++ group 1 name

def isDottedWord (c : Char) : Bool :=
  isWord c || c == '.'

/-- Characters of a dotted ASCII word. -/
def isDottedName (c : Char) : Bool :=
  isAsciiWord c || c == '.'

/-- An optional word from a list, followed by white space. -/
def optWord (choices : List String) : Pattern :=
  opt (oneOf (choices.map fun w => lit w ++ blanks1))

/-- Parameters in parentheses; what is between them is the group given. -/
def parenthesised (index : Nat) : Pattern :=
  lit "(" ++ group index (many (notAmong ")")) ++ lit ")"

/-- A directive such as `#include <name>`; the name is group 1. -/
def bracketed (directive : String) : Pattern :=
  margin ++ lit directive ++ blanks1 ++ one (among "<\"") ++ group 1 (many1 (notAmong ">\"")) ++
    one (among ">\"")

def lineComment (opening : String) : Pattern :=
  lit opening ++ many inLine

/-- A comment from an opening mark to the nearest closing mark. -/
def blockComment (opening : String) : Pattern :=
  lit opening ++ fewest anyChar ++ lit "*/"

/-- Comments as a JSON value: those of a line, and a second kind under a name of its own. -/
def commentsJson (single : List String) (kind : String) (others : List String) : Json :=
  .object [("single_line", .texts single), (kind, .texts others)]

end CodeAtlas.Outline
