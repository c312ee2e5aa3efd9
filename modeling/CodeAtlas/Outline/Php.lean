import CodeAtlas.Outline.Basic

/-!
# PHP outlines

Namespaces, uses, classes and functions that stand without a modifier, after the opening tag.
-/

namespace CodeAtlas.Php

open Pattern Outline

structure Outline where
  namespaces : List String
  uses : List String
  classes : List String
  functions : List Function
  comments : List String
  docblocks : List String
  deriving DecidableEq, Repr

/-- The opening tag at the very start, in any case. -/
def openingTag : Pattern :=
  textStart ++ blanks ++ litAnyCase "<?php"

/-- A text without its opening tag. -/
def body (code : List Char) : List Char :=
  openingTag.replaceAll (fun _ => []) code

def isQualifiedChar (c : Char) : Bool :=
  Text.isAsciiWord c || c == '\\'

/-- A class, perhaps abstract or final. -/
def classPattern : Pattern :=
  margin ++ optWord ["abstract", "final"] ++ lit "class" ++ blanks1 ++ group 1 capitalName

/-- A function: its name is group 1, its parameters group 2. -/
def functionPattern : Pattern :=
  margin ++ lit "function" ++ blanks1 ++ opt (lit "&") ++ blanks ++
    group 1 (many1 Text.isAsciiWord) ++ blanks ++ parenthesised 2

def functions (code : List Char) : List Function :=
  collectFunctions functionPattern (body code)

def outline (code : List Char) : Outline where
  namespaces := collectTexts (declares "namespace" (many1 isQualifiedChar) ++ lit ";") 1 (body code)
  uses := collectTexts (declares "use" (many1 isQualifiedChar) ++ lit ";") 1 (body code)
  classes := collectTexts classPattern 1 (body code)
  functions := functions code
  comments := collectWhole (lineComment "//") (body code)
  docblocks := collectWhole (blockComment "/**") (body code)

def Outline.fields (o : Outline) : List (String × Json) :=
  [("namespaces", .texts o.namespaces), ("uses", .texts o.uses), ("classes", .texts o.classes),
    ("functions", .array (o.functions.map Function.toJson)),
    ("comments", commentsJson o.comments "docblocks" o.docblocks)]

end CodeAtlas.Php
