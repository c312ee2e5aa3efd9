import CodeAtlas.Outline.Basic

/-!
# C# outlines

Usings, namespaces, classes, interfaces and functions. A function is exactly one modifier, a type
and a name before its parameters.
-/

namespace CodeAtlas.CSharp

open Pattern Outline

structure Outline where
  usings : List String
  namespaces : List String
  classes : List String
  interfaces : List String
  functions : List Function
  comments : List String
  xmlComments : List String
  deriving DecidableEq, Repr

/-- A class, perhaps visible and perhaps one part of several. -/
def classPattern : Pattern :=
  margin ++ optWord ["public", "internal", "private"] ++ optWord ["partial"] ++ lit "class" ++
    blanks1 ++ group 1 capitalName

def isTypeChar (c : Char) : Bool :=
  Text.isWord c || c == '<' || c == '>' || c == '[' || c == ']'

/-- A function: its name is group 1, its parameters group 2. -/
def functionPattern : Pattern :=
  margin ++ anyOf ["public", "private", "internal", "protected", "static"] ++ blanks1 ++
    many1 isTypeChar ++ blanks1 ++ group 1 (many1 Text.isAsciiWord) ++ blanks ++ parenthesised 2

def functions (code : List Char) : List Function :=
  collectFunctions functionPattern code

def outline (code : List Char) : Outline where
  usings := collectTexts (declares "using" (many1 isDottedName) ++ blanks ++ lit ";") 1 code
  namespaces := collectTexts (declares "namespace" (many1 isDottedName)) 1 code
  classes := collectTexts classPattern 1 code
  interfaces := collectTexts (declares "interface" capitalName) 1 code
  functions := functions code
  comments := collectWhole (lineComment "//") code
  xmlComments := collectWhole (lineComment "///") code

def Outline.fields (o : Outline) : List (String × Json) :=
  [("usings", .texts o.usings), ("namespaces", .texts o.namespaces), ("classes", .texts o.classes),
    ("interfaces", .texts o.interfaces), ("functions", .array (o.functions.map Function.toJson)),
    ("comments", commentsJson o.comments "xml" o.xmlComments)]

end CodeAtlas.CSharp
