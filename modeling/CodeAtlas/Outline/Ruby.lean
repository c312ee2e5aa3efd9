import CodeAtlas.Outline.Basic

/-!
# Ruby outlines

Required files, modules, classes and methods. A method's parameters are those in the parentheses
after its name, if there are any.
-/

namespace CodeAtlas.Ruby

open Pattern Outline

structure Outline where
  imports : List String
  modules : List String
  classes : List String
  functions : List Function
  comments : List String
  docblocks : List String
  deriving DecidableEq, Repr

/-- A file that is required or loaded by a literal name. -/
def importPattern : Pattern :=
  margin ++ anyOf ["require", "require_relative", "load"] ++ blanks1 ++ one (among "\"'") ++
    group 1 (many1 (notAmong "\"'")) ++ one (among "\"'")

def isMethodChar (c : Char) : Bool :=
  Text.isAsciiWord c || c == '!' || c == '?' || c == '='

/-- A method: its name is group 1, its parameters with their parentheses group 2. -/
def methodPattern : Pattern :=
  margin ++ lit "def" ++ blanks1 ++ group 1 (many1 isMethodChar) ++ blanks ++
    opt (group 2 (lit "(" ++ many (notAmong ")") ++ lit ")"))

/-- The methods of a text. -/
def functions (code : List Char) : List Function :=
  (methodPattern.findAll code).map fun m =>
    ⟨String.ofList (m.group 1), paramList (Text.trimBoth (among "()") (m.group 2))⟩

def outline (code : List Char) : Outline where
  imports := collectTexts importPattern 1 code
  modules := collectTexts (declares "module" capitalWord) 1 code
  classes := collectTexts (declares "class" capitalWord) 1 code
  functions := functions code
  comments := collectWhole (lineComment "#") code
  docblocks := collectWhole (blockComment "/**") code

def Outline.fields (o : Outline) : List (String × Json) :=
  [("imports", .texts o.imports), ("modules", .texts o.modules), ("classes", .texts o.classes),
    ("functions", .array (o.functions.map Function.toJson)),
    ("comments", commentsJson o.comments "docblocks" o.docblocks)]

end CodeAtlas.Ruby
