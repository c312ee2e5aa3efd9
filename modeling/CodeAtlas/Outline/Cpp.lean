import CodeAtlas.Outline.Basic

/-!
# C++ outlines

Includes, namespaces, classes, structures, functions and macros. A function is a type, a name and
parentheses that are followed by a semicolon or an opening brace.
-/

namespace CodeAtlas.Cpp

open Pattern Outline Text

structure Outline where
  includes : List String
  namespaces : List String
  classes : List String
  structs : List String
  functions : List Prototype
  macros : List String
  comments : List String
  blockComments : List String
  deriving DecidableEq, Repr

def isTypeChar (c : Char) : Bool :=
  isWord c || c == ':' || c == '*' || c == '&' || c == '<' || c == '>' || c == '~'

def isNameChar (c : Char) : Bool :=
  isAsciiWord c || c == ':' || c == '.'

/-- What may stand between the parentheses of a declaration. -/
def isParamChar : Char → Bool :=
  notAmong ";\x7b)"

/-- A function: result type, name and parameters are groups 1, 2 and 3. -/
def functionPattern : Pattern :=
  margin ++ group 1 (many1 isTypeChar) ++ blanks1 ++ group 2 (one beginsName ++ many isNameChar) ++
    blanks ++ lit "(" ++ group 3 (many isParamChar) ++ lit ")" ++ blanks ++ anyOf [";", "\x7b"]

def functions (code : List Char) : List Prototype :=
  (functionPattern.findAll code).map fun m =>
    ⟨String.ofList (trim (m.group 2)), String.ofList (trim (m.group 1)),
      paramList (m.group 3)⟩

def isMacroChar (c : Char) : Bool :=
  isCapital c || isAsciiDigit c || c == '_'

def outline (code : List Char) : Outline where
  includes := collectTexts (bracketed "#include") 1 code
  namespaces := collectTexts (declares "namespace" (many1 isAsciiWord)) 1 code
  classes := collectTexts (declares "class" capitalName) 1 code
  structs := collectTexts (declares "struct" capitalName) 1 code
  functions := functions code
  macros := collectTexts (declares "#define" (many1 isMacroChar)) 1 code
  comments := collectWhole (lineComment "//") code
  blockComments := collectWhole (blockComment "/*") code

def Outline.fields (o : Outline) : List (String × Json) :=
  [("includes", .texts o.includes), ("namespaces", .texts o.namespaces),
    ("classes", .texts o.classes), ("structs", .texts o.structs),
    ("functions", .array (o.functions.map Prototype.toJson)), ("macros", .texts o.macros),
    ("comments", commentsJson o.comments "block" o.blockComments)]

end CodeAtlas.Cpp
