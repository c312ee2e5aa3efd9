/-!
# Tokens

The words of a module. Every token knows the line it starts on and how many brackets are open after
it.
-/

namespace CodeAtlas.Script

/-- What kind of word a token is. -/
inductive TokenKind where
  | name
  | keyword
  | number
  | string
  | operator
  /-- A character that belongs to no other token. -/
  | stray
  | newline
  | indent
  | dedent
  | finish
  deriving DecidableEq, Repr, Inhabited

/-- A word of a module. -/
structure Token where
  kind : TokenKind
  text : String
  line : Nat
  level : Nat
  deriving DecidableEq, Repr, Inhabited

/-- The words that are never names. -/
def keywords : List String :=
  ["False", "None", "True", "and", "as", "assert", "async", "await", "break", "class", "continue",
    "def", "del", "elif", "else", "except", "finally", "for", "from", "global", "if", "import",
    "in", "is", "lambda", "nonlocal", "not", "or", "pass", "raise", "return", "try", "while",
    "with", "yield"]

def softKeywords : List String :=
  ["_", "case", "match"]

/-- Whether a name could be the start of a keyword of some places. -/
def beginsSoftKeyword (id : String) : Bool :=
  softKeywords.any fun k => id.toList.isPrefixOf k.toList

/-- A mistake in a module: what is wrong, and on which line. -/
structure Fault where
  message : String
  line : Nat
  deriving DecidableEq, Repr, Inhabited

/-- Why the words of a text end before the text does. -/
inductive Trouble where
  /-- A word that is none. -/
  | word (fault : Fault)
  /-- Lines that do not fit together. -/
  | layout (fault : Fault)
  /-- The text ends where it must not. -/
  | cutShort (line : Nat)
  deriving DecidableEq, Repr, Inhabited

/-- An open bracket and its line. -/
abbrev Opening := Char × Nat

/-- The words of a text: all of them, or those before some trouble and the brackets that are open
there, the innermost first. -/
structure Words where
  tokens : Array Token
  trouble : Option (Trouble × List Opening)
  deriving Repr, Inhabited

/-- The fault of a bracket that is not closed. -/
def Opening.fault (o : Opening) : Fault :=
  ⟨s!"'{o.1}' was never closed", o.2⟩

end CodeAtlas.Script
