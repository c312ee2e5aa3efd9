import CodeAtlas.Outline.Basic

/-!
# Rust outlines

Uses, crates, types, functions and macros. Types and functions are listed if the word `pub`, or just
its first two letters, precedes them.
-/

namespace CodeAtlas.Rust

open Pattern Outline Text

structure Outline where
  uses : List String
  externCrates : List String
  structs : List String
  enums : List String
  traits : List String
  functions : List Function
  macros : List String
  comments : List String
  blockComments : List String
  deriving DecidableEq, Repr

/-- The word `pub` with its last letter optional, and any white space. -/
def visible : Pattern :=
  margin ++ lit "pu" ++ opt (lit "b") ++ blanks

/-- A visible type declared by a keyword; its name is group 1. -/
def typePattern (keyword : String) : Pattern :=
  visible ++ lit keyword ++ blanks1 ++ group 1 capitalName

/-- A visible function: its name is group 1, its parameters group 2. -/
def functionPattern : Pattern :=
  visible ++ lit "fn" ++ blanks1 ++ group 1 (many1 isAsciiWord) ++ blanks ++ parenthesised 2

def functions (code : List Char) : List Function :=
  collectFunctions functionPattern code

def outline (code : List Char) : Outline where
  uses := collectTexts (declares "use" (many1 (notAmong ";")) ++ lit ";") 1 code
  externCrates :=
    collectTexts (margin ++ lit "extern" ++ blanks1 ++ lit "crate" ++ blanks1 ++
      group 1 (many1 isWord)) 1 code
  structs := collectTexts (typePattern "struct") 1 code
  enums := collectTexts (typePattern "enum") 1 code
  traits := collectTexts (typePattern "trait") 1 code
  functions := functions code
  macros :=
    collectTexts (margin ++ lit "macro_rules!" ++ blanks ++ group 1 (many1 isAsciiWord)) 1 code
  comments := collectWhole (lineComment "//") code
  blockComments := collectWhole (blockComment "/*") code

def Outline.fields (o : Outline) : List (String × Json) :=
  [("uses", .texts o.uses), ("extern_crates", .texts o.externCrates), ("structs", .texts o.structs),
    ("enums", .texts o.enums), ("traits", .texts o.traits),
    ("functions", .array (o.functions.map Function.toJson)), ("macros", .texts o.macros),
    ("comments", commentsJson o.comments "block" o.blockComments)]

end CodeAtlas.Rust
