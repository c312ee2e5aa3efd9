import CodeAtlas.Outline.Basic

/-!
# Swift outlines

Imports, types and functions, a class or function with at most one visibility word.
-/

namespace CodeAtlas.Swift

open Pattern Outline

structure Outline where
  imports : List String
  classes : List String
  structs : List String
  enums : List String
  functions : List Function
  comments : List String
  docblocks : List String
  deriving DecidableEq, Repr

def classPattern : Pattern :=
  margin ++ optWord ["public", "internal", "private"] ++ lit "class" ++ blanks1 ++
    group 1 capitalName

/-- A function: its name is group 1, its parameters group 2. -/
def functionPattern : Pattern :=
  margin ++ optWord ["public", "private", "internal"] ++ lit "func" ++ blanks1 ++
    group 1 (many1 Text.isAsciiWord) ++ blanks ++ parenthesised 2

def functions (code : List Char) : List Function :=
  collectFunctions functionPattern code

def outline (code : List Char) : Outline where
  imports := collectTexts (declares "import" (many1 isDottedName)) 1 code
  classes := collectTexts classPattern 1 code
  structs := collectTexts (declares "struct" capitalName) 1 code
  enums := collectTexts (declares "enum" capitalName) 1 code
  functions := functions code
  comments := collectWhole (lineComment "//") code
  docblocks := collectWhole (blockComment "/**") code

def Outline.fields (o : Outline) : List (String × Json) :=
  [("imports", .texts o.imports), ("classes", .texts o.classes), ("structs", .texts o.structs),
    ("enums", .texts o.enums), ("functions", .array (o.functions.map Function.toJson)),
    ("comments", commentsJson o.comments "docblocks" o.docblocks)]

end CodeAtlas.Swift
