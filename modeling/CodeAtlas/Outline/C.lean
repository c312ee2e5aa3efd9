import CodeAtlas.Outline.Basic

/-!
# C outlines

Includes, structures, functions and macros. A function is a result type of one or more words and
stars, white space, a name and parentheses that are followed by a semicolon or an opening brace.
-/

namespace CodeAtlas.C

open Pattern Outline Text

structure Outline where
  includes : List String
  structs : List String
  functions : List Prototype
  macros : List String
  comments : List String
  blockComments : List String
  deriving DecidableEq, Repr

def isTypeChar (c : Char) : Bool :=
  isAsciiWord c || isBlank c || c == '*'

/-- A function: result type, name and parameters are groups 1, 2 and 3. -/
def functionPattern : Pattern :=
  margin ++ group 1 (one beginsName ++ many1 isTypeChar) ++ blanks1 ++
    group 2 (one beginsName ++ many isAsciiWord) ++ blanks ++ lit "(" ++
    group 3 (many (notAmong ";\x7b)")) ++ lit ")" ++ blanks ++ anyOf [";", "\x7b"]

/-- The functions of a text. The words of a result type are joined by single spaces. -/
def functions (code : List Char) : List Prototype :=
  (functionPattern.findAll code).map fun m =>
    ⟨String.ofList (m.group 2), String.ofList (joinWith [' '] (words (m.group 1))),
      paramList (m.group 3)⟩

def isMacroChar (c : Char) : Bool :=
  isCapital c || isAsciiDigit c || c == '_'

def outline (code : List Char) : Outline where
  includes := collectTexts (bracketed "#include") 1 code
  structs := collectTexts (declares "struct" (many1 isAsciiWord)) 1 code
  functions := functions code
  macros := collectTexts (declares "#define" (many1 isMacroChar)) 1 code
  comments := collectWhole (lineComment "//") code
  blockComments := collectWhole (blockComment "/*") code

def Outline.fields (o : Outline) : List (String × Json) :=
  [("includes", .texts o.includes), ("structs", .texts o.structs),
    ("functions", .array (o.functions.map Prototype.toJson)), ("macros", .texts o.macros),
    ("comments", commentsJson o.comments "block" o.blockComments)]

end CodeAtlas.C
