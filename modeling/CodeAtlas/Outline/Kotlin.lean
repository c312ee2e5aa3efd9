import CodeAtlas.Outline.Basic

/-!
# Kotlin outlines

The package, imports, classes, objects and functions, each with at most one visibility word.
-/

namespace CodeAtlas.Kotlin

open Pattern Outline

structure Outline where
  package : Option String
  imports : List String
  classes : List String
  objects : List String
  functions : List Function
  comments : List String
  docblocks : List String
  deriving DecidableEq, Repr

/-- A class, perhaps visible and perhaps a data class. -/
def classPattern : Pattern :=
  margin ++ optWord ["public", "internal", "private"] ++ optWord ["data"] ++ lit "class" ++
    blanks1 ++ group 1 capitalWord

/-- Characters of a function name, which may hold type parameters. -/
def isFunctionChar (c : Char) : Bool :=
  Text.isAsciiWord c || c == '<' || c == '>' || c == ',' || c == '?'

/-- A function: its name is group 1, its parameters group 2. -/
def functionPattern : Pattern :=
  margin ++ optWord ["public", "private", "internal"] ++ lit "fun" ++ blanks1 ++
    group 1 (many1 isFunctionChar) ++ blanks ++ parenthesised 2

def functions (code : List Char) : List Function :=
  collectFunctions functionPattern code

def outline (code : List Char) : Outline where
  package := (collectTexts (declares "package" (many1 isDottedWord)) 1 code).head?
  imports := collectTexts (declares "import" (many1 isDottedWord)) 1 code
  classes := collectTexts classPattern 1 code
  objects := collectTexts (declares "object" capitalWord) 1 code
  functions := functions code
  comments := collectWhole (lineComment "//") code
  docblocks := collectWhole (blockComment "/**") code

def Outline.fields (o : Outline) : List (String × Json) :=
  [("package", .ofOption o.package), ("imports", .texts o.imports), ("classes", .texts o.classes),
    ("objects", .texts o.objects), ("functions", .array (o.functions.map Function.toJson)),
    ("comments", commentsJson o.comments "docblocks" o.docblocks)]

end CodeAtlas.Kotlin
