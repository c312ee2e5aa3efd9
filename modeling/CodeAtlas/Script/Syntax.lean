import CodeAtlas.Number.Binary

/-!
# The syntax of Python modules

Expressions in full, because outlines show them; statements as far as an outline can show anything
of them. Every expression knows the line it starts on, which is what messages about it give.
-/

namespace CodeAtlas.Script

/-- A constant. Texts are given by code points, since a literal may hold half a surrogate pair. -/
inductive Constant where
  | nothing
  | truth (value : Bool)
  | ellipsis
  | integer (value : Nat)
  | real (value : Binary)
  | imaginary (value : Binary)
  /-- A text, and whether its first literal is marked with the letter `u`. -/
  | text (points : List Nat) (isMarked : Bool)
  | bytes (values : List Nat)
  deriving DecidableEq, Repr

/-- An operator between two operands. -/
inductive BinaryOp where
  | add
  | subtract
  | multiply
  | matrixMultiply
  | divide
  | modulo
  | power
  | shiftLeft
  | shiftRight
  | bitOr
  | bitXor
  | bitAnd
  | floorDivide
  deriving DecidableEq, Repr

/-- An operator before its operand. -/
inductive UnaryOp where
  | invert
  | negation
  | plus
  | minus
  deriving DecidableEq, Repr

/-- A connective of conditions. -/
inductive BoolOp where
  | conjunction
  | disjunction
  deriving DecidableEq, Repr

inductive CompareOp where
  | equal
  | notEqual
  | less
  | lessOrEqual
  | greater
  | greaterOrEqual
  | same
  | notSame
  | member
  | notMember
  deriving DecidableEq, Repr

mutual

/-- An expression, with the line it starts on. -/
inductive Expr where
  | constant (line : Nat) (value : Constant)
  | name (line : Nat) (id : String)
  /-- A text with replacement fields. -/
  | template (line : Nat) (pieces : List Piece)
  | connective (line : Nat) (op : BoolOp) (operands : List Expr)
  | binary (line : Nat) (left : Expr) (op : BinaryOp) (right : Expr)
  | unary (line : Nat) (op : UnaryOp) (operand : Expr)
  | comparison (line : Nat) (left : Expr) (rest : List (CompareOp × Expr))
  /-- An assignment inside an expression. -/
  | walrus (line : Nat) (target value : Expr)
  | lambda (line : Nat) (parameters : Parameters) (body : Expr)
  | conditional (line : Nat) (body test otherwise : Expr)
  /-- A dictionary; an item without a key is unpacked. -/
  | dictionary (line : Nat) (items : List (Option Expr × Expr))
  | set (line : Nat) (items : List Expr)
  | list (line : Nat) (items : List Expr)
  | tuple (line : Nat) (items : List Expr)
  | listOver (line : Nat) (element : Expr) (clauses : List Clause)
  | setOver (line : Nat) (element : Expr) (clauses : List Clause)
  | dictionaryOver (line : Nat) (key value : Expr) (clauses : List Clause)
  | generator (line : Nat) (element : Expr) (clauses : List Clause)
  | await (line : Nat) (value : Expr)
  | yield (line : Nat) (value : Option Expr)
  | yieldFrom (line : Nat) (value : Expr)
  | call (line : Nat) (callee : Expr) (arguments : List Expr) (keywords : List Keyword)
  | attribute (line : Nat) (value : Expr) (id : String)
  | subscript (line : Nat) (value index : Expr)
  | starred (line : Nat) (value : Expr)
  | slice (line : Nat) (lower upper step : Option Expr)

/-- A piece of a text with replacement fields. -/
inductive Piece where
  | literal (points : List Nat)
  | field (value : Expr) (conversion : Option Char) (spec : Option (List Piece))

/-- A clause `for target in source if …` of a comprehension. -/
inductive Clause where
  | mk (isAsync : Bool) (target source : Expr) (conditions : List Expr)

/-- An argument given by name; one without a name is unpacked. -/
inductive Keyword where
  | mk (id : Option String) (value : Expr)

/-- A parameter with its type hint and its default. -/
inductive Parameter where
  | mk (line : Nat) (id : String) (hint default : Option Expr)

/-- The parameters of a function: those given by position only, the ordinary ones, the one that
takes further positional arguments, those given by name only, and the one that takes further named
arguments. -/
inductive Parameters where
  | mk (positional ordinary : List Parameter) (rest : Option Parameter) (named : List Parameter)
    (namedRest : Option Parameter)

end

instance : Inhabited Expr := ⟨.name 0 ""⟩
instance : Inhabited Parameters := ⟨.mk [] [] none [] none⟩

namespace Parameter

def line : Parameter → Nat
  | .mk line _ _ _ => line

def id : Parameter → String
  | .mk _ id _ _ => id

def hint : Parameter → Option Expr
  | .mk _ _ hint _ => hint

def default : Parameter → Option Expr
  | .mk _ _ _ default => default

end Parameter

namespace Parameters

/-- The parameters given by position only. -/
def positional : Parameters → List Parameter
  | .mk ps _ _ _ _ => ps

def ordinary : Parameters → List Parameter
  | .mk _ ps _ _ _ => ps

/-- The parameter that takes further positional arguments. -/
def rest : Parameters → Option Parameter
  | .mk _ _ p _ _ => p

/-- The parameters given by name only. -/
def named : Parameters → List Parameter
  | .mk _ _ _ ps _ => ps

/-- The parameter that takes further named arguments. -/
def namedRest : Parameters → Option Parameter
  | .mk _ _ _ _ p => p

/-- The defaults of the parameters that may be given by position, in order. -/
def defaults (ps : Parameters) : List Expr :=
  (ps.positional ++ ps.ordinary).filterMap Parameter.default

end Parameters

/-- The name of an argument; none if it is unpacked. -/
def Keyword.id : Keyword → Option String
  | .mk id _ => id

def Keyword.value : Keyword → Expr
  | .mk _ value => value

def Expr.line : Expr → Nat
  | .constant n _ | .name n _ | .template n _ | .connective n _ _ | .binary n _ _ _ | .unary n _ _
  | .comparison n _ _ | .walrus n _ _ | .lambda n _ _ | .conditional n _ _ _ | .dictionary n _
  | .set n _ | .list n _ | .tuple n _ | .listOver n _ _ | .setOver n _ _ | .dictionaryOver n _ _ _
  | .generator n _ _ | .await n _ | .yield n _ | .yieldFrom n _ | .call n _ _ _ | .attribute n _ _
  | .subscript n _ _ | .starred n _ | .slice n _ _ _ => n

/-! ## Statements -/

/-- A name that is imported, and the name it is given. -/
structure Alias where
  id : String
  given : Option String
  deriving DecidableEq, Repr

/-- What a function definition says besides its body. -/
structure Signature where
  isAsync : Bool
  id : String
  parameters : Parameters
  result : Option Expr
  decorators : List Expr

/-- What a class definition says besides its body. -/
structure ClassHead where
  id : String
  bases : List Expr
  decorators : List Expr

mutual

inductive Stmt where
  | expression (value : Expr)
  | assignment (targets : List Expr)
  | importModules (names : List Alias)
  /-- An import from a module, with the number of points before its name. -/
  | importFrom (module : Option String) (names : List Alias) (level : Nat)
  | function (signature : Signature) (body : List Stmt)
  | classDef (head : ClassHead) (body : List Stmt)
  /-- A statement made of others: conditions, loops, guarded blocks, case distinctions. -/
  | compound (parts : List Part)
  /-- A statement of which no outline shows anything. -/
  | other

/-- A part of a compound statement: a statement of one of its blocks, or a clause with statements of
its own, which lie one level deeper. -/
inductive Part where
  | statement (s : Stmt)
  | clause (body : List Stmt)

end

instance : Inhabited Stmt := ⟨.other⟩

abbrev Module := List Stmt

end CodeAtlas.Script
