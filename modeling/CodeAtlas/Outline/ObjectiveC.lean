import CodeAtlas.Outline.Basic

/-!
# Objective-C outlines

Imports, includes, interfaces, implementations, and the signatures of methods with a body.
-/

namespace CodeAtlas.ObjectiveC

open Pattern Outline Text

structure Outline where
  imports : List String
  includes : List String
  interfaces : List String
  implementations : List String
  methods : List String
  comments : List String
  blockComments : List String
  deriving DecidableEq, Repr

/-- Characters of a selector with its arguments' names. -/
def isSelectorChar (c : Char) : Bool :=
  isAsciiWord c || c == ':' || isBlank c

/-- A method from its sign to the brace that opens its body. -/
def methodPattern : Pattern :=
  anyOf ["+", "-"] ++ blanks ++ lit "(" ++ fewest inLine ++ lit ")" ++ blanks ++
    many1 isSelectorChar ++ lit "\x7b"

def outline (code : List Char) : Outline where
  imports := collectTexts (bracketed "#import") 1 code
  includes := collectTexts (bracketed "#include") 1 code
  interfaces := collectTexts (declares "@interface" capitalName) 1 code
  implementations := collectTexts (declares "@implementation" capitalName) 1 code
  methods := (methodPattern.collectAll code).map fun t => String.ofList (trim t)
  comments := collectWhole (lineComment "//") code
  blockComments := collectWhole (blockComment "/*") code

def Outline.fields (o : Outline) : List (String × Json) :=
  [("imports", .texts o.imports), ("includes", .texts o.includes),
    ("interfaces", .texts o.interfaces), ("implementations", .texts o.implementations),
    ("methods", .array (o.methods.map fun s => .object [("signature", .text s)])),
    ("comments", commentsJson o.comments "block" o.blockComments)]

end CodeAtlas.ObjectiveC
