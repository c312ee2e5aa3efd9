import CodeAtlas.Script.Syntax
import CodeAtlas.Script.Token
import CodeAtlas.Text.Composed

/-!
# Parsers with ordered choice

A parser reads tokens from a mark on. It succeeds with a value, fails so that another choice may be
tried from the same mark, or gives up with a fault for good. A choice once taken is not revised.

A text is read twice if it has to be: the first time only to understand it, the second time to
explain what is wrong, with further choices whose only outcome is a fault. Results of rules are kept
for each mark, so no rule is tried twice at one mark.

Rules call each other by name through a table that is handed to them, which keeps every definition
here free of recursion; the table is tied up with a bound on nesting in the module of the grammar.
-/

namespace CodeAtlas.Script

/-- The rules of the grammar that others refer to by name. -/
inductive Rule where
  | expression
  | starExpression
  | starExpressions
  | starNamed
  | named
  | disjunction
  | conjunction
  | inversion
  | bitOr
  | bitXor
  | bitAnd
  | shift
  | sum
  | term
  | factor
  | awaited
  | primary
  | strings
  | slices
  | yielded
  | generator
  | listDisplay
  | tupleDisplay
  | plainExpression
  | clauses
  | arguments
  | keywordArguments
  | lambdaParameters
  | parameters
  | starTarget
  | starAtomTarget
  | targetPrimary
  | singleTarget
  | delTarget
  | annotatedTuple
  | closedPattern
  | starPattern
  | pattern
  | simpleStatement
  | statements
  | block
  | elifBranch
  | misnamed
  deriving DecidableEq, Repr, Inhabited

/-- Arguments of a call: those by position and those by name. -/
abbrev Arguments := List Expr × List Keyword

/-- The kinds of things that rules yield. -/
inductive Yield where
  | expression
  | clauses
  | arguments
  | parameters
  | statement
  | statements
  /-- Nothing but the fact that the rule applies. -/
  | mark
  deriving DecidableEq, Repr

/-- The things of a kind. -/
@[reducible]
def Yield.type : Yield → Type
  | .expression => Expr
  | .clauses => List Clause
  | .arguments => Arguments
  | .parameters => Parameters
  | .statement => Stmt
  | .statements => List Stmt
  | .mark => Unit

@[reducible]
def Rule.yield : Rule → Yield
  | .clauses => .clauses
  | .arguments => .arguments
  | .keywordArguments => .arguments
  | .lambdaParameters => .parameters
  | .parameters => .parameters
  | .closedPattern => .mark
  | .starPattern => .mark
  | .pattern => .mark
  | .misnamed => .mark
  | .simpleStatement => .statement
  | .statements => .statements
  | .block => .statements
  | .elifBranch => .statement
  | _ => .expression

@[reducible]
def Rule.result (r : Rule) : Type :=
  r.yield.type

/-- Why a text is given up. -/
inductive Abort where
  /-- A fault of the words themselves. -/
  | words (fault : Fault)
  /-- A fault that a rule found, and the line of the last token that was looked at. -/
  | rule (fault : Fault) (lastLine : Nat)
  /-- More nesting than the parser bears. -/
  | tooDeep
  deriving DecidableEq, Repr, Inhabited

/-- The fault of a replacement field as one of the text around it, of which the token looked at last
is on a line. -/
def Abort.seenFrom (lastLine : Nat) : Abort → Abort
  | .words fault | .rule fault _ => .rule fault lastLine
  | .tooDeep => .tooDeep

/-- What stays the same while a text is read. -/
structure Env where
  words : Words
  /-- Whether the text is that of a replacement field. -/
  isField : Bool
  /-- Reads the text of a replacement field that starts on a line. -/
  field : Nat → List Char → Except Abort Expr

/-- A kept result: what a rule yielded and where it ended, or its failure. -/
abbrev Kept := (y : Yield) × Option (y.type × Nat)

/-- A kept result as one of a kind. -/
def Kept.as? (y : Yield) : Kept → Option (Option (y.type × Nat))
  | ⟨y', v⟩ => if h : y' = y then some (h ▸ v) else none

/-- The key under which the result of a rule at a mark is kept. -/
def Rule.key (r : Rule) (mark : Nat) : Nat :=
  mark * 64 + r.ctorIdx

/-- How far the reading has come. -/
structure State where
  mark : Nat
  /-- The number of tokens that were looked at. -/
  seen : Nat
  /-- Whether faults are to be explained. -/
  explains : Bool
  kept : Std.TreeMap Nat Kept

inductive Reply (α : Type) where
  | yes (value : α) (s : State)
  | no (s : State)
  | abort (a : Abort)

def P (α : Type) : Type :=
  Env → State → Reply α

abbrev Grammar := (r : Rule) → P r.result

namespace P

variable {α β : Type}

instance : Monad P where
  pure a := fun _ s => .yes a s
  bind p f := fun e s =>
    match p e s with
    | .yes a s => f a e s
    | .no s => .no s
    | .abort a => .abort a

def fail : P α :=
  fun _ s => .no s

/-- Ordered choice: the second parser is tried where the first one started, if that failed. -/
@[inline]
def orElse (p : P α) (q : Unit → P α) : P α :=
  fun e s =>
    match p e s with
    | .yes a s' => .yes a s'
    | .no s' => q () e { s' with mark := s.mark }
    | .abort a => .abort a

instance : OrElse (P α) := ⟨orElse⟩

/-- A choice that is settled by its first part: once that succeeds, the rest has to, and the other
choice is not tried. -/
@[inline]
def settled (head : P α) (rest : α → P β) (otherwise : P β) : P β :=
  fun e s =>
    match head e s with
    | .yes a s' => rest a e s'
    | .no s' => otherwise e { s' with mark := s.mark }
    | .abort a => .abort a

/-- The value of a parser if it succeeds. -/
def optional (p : P α) : P (Option α) :=
  (do return some (← p)) <|> pure none

/-- Succeeds where a parser would, and takes nothing. -/
def ahead (p : P α) : P Unit :=
  fun e s =>
    match p e s with
    | .yes _ s' => .yes () { s' with mark := s.mark }
    | .no s' => .no { s' with mark := s.mark }
    | .abort a => .abort a

/-- Succeeds where a parser would fail, and takes nothing. -/
def notAhead (p : P α) : P Unit :=
  fun e s =>
    match p e s with
    | .yes _ s' => .no { s' with mark := s.mark }
    | .no s' => .yes () { s' with mark := s.mark }
    | .abort a => .abort a

/-- Repeats a parser as long as it succeeds, but no more often than there are tokens. -/
def repeatAtMost (p : P α) : Nat → P (List α)
  | 0 => pure []
  | n + 1 => (do return (← p) :: (← repeatAtMost p n)) <|> pure []

/-- Repeats a parser as long as it succeeds. -/
def many (p : P α) : P (List α) :=
  fun e s => repeatAtMost p (e.words.tokens.size + 1 - s.mark) e s

/-- Repeats a parser as long as it succeeds, and at least once. -/
def many1 (p : P α) : P (List α) := do
  return (← p) :: (← many p)

/-- Repeats a parser with separators between. -/
def separated (sep : P β) (p : P α) : P (List α) := do
  return (← p) :: (← many (do let _ ← sep; p))

/-- Repeats a step on a value as long as it succeeds, but so often at most. -/
def growAtMost (step : α → P α) : Nat → α → P α
  | 0, a => pure a
  | n + 1, a => (do growAtMost step n (← step a)) <|> pure a

/-- Repeats a step on a value as long as it succeeds. -/
def grow (step : α → P α) (a : α) : P α :=
  fun e s => growAtMost step (e.words.tokens.size + 1 - s.mark) a e s

/-! ## Faults -/

/-- A message, marked as one about a replacement field where it is. -/
def Env.wording (e : Env) (message : String) : String :=
  if e.isField then "f-string: " ++ message else message

/-- The line of the last token that was looked at. -/
def lastLine (e : Env) (s : State) : Nat :=
  ((e.words.tokens[s.seen - 1]?).map Token.line).getD 0

/-- Gives up with a fault on a line. -/
def raiseAt (line : Nat) (message : String) : P α :=
  fun e s => .abort (.rule ⟨Env.wording e message, line⟩ (lastLine e s))

/-- Gives up with a fault on the line of the last token that was looked at. -/
def raise (message : String) : P α :=
  fun e s => raiseAt (lastLine e s) message e s

/-- The fault of words that end too early. -/
def endingFault (e : Env) : Trouble → List Opening → Fault
  | .word f, _ => f
  | .layout f, _ => ⟨Env.wording e f.message, f.line⟩
  | .cutShort _, o :: _ => ⟨Env.wording e o.fault.message, o.fault.line⟩
  | .cutShort line, [] => ⟨Env.wording e "unexpected EOF while parsing", line⟩

/-- Tries to explain what is wrong, if that is asked for; never succeeds. -/
def explain (p : P Unit) : P α :=
  fun e s =>
    if s.explains then
      match p e s with
      | .yes _ s' | .no s' => .no { s' with mark := s.mark }
      | .abort a => .abort a
    else .no s

/-- Runs a parser that explains nothing. -/
def withoutExplaining (p : P α) : P α :=
  fun e s =>
    match p e { s with explains := false } with
    | .yes a s' => .yes a { s' with explains := s.explains }
    | .no s' => .no { s' with explains := s.explains }
    | .abort a => .abort a

/-! ## Tokens -/

/-- The next token, which is not taken. -/
def peek : P Token :=
  fun e s =>
    match e.words.tokens[s.mark]? with
    | some t => .yes t (if s.mark < s.seen then s else { s with seen := s.mark + 1 })
    | none =>
      match e.words.trouble with
      | some (t, opened) => .abort (.words (endingFault e t opened))
      | none => .no s

def line : P Nat := do
  return (← peek).line

/-- Takes the next token if it passes a test. -/
def token (test : Token → Bool) : P Token :=
  fun e s =>
    match peek e s with
    | .yes t s' => if test t then .yes t { s' with mark := s'.mark + 1 } else .no s'
    | .no s' => .no s'
    | .abort a => .abort a

/-- Whether a token is a sign or a keyword. -/
def isWord (text : String) (t : Token) : Bool :=
  (t.kind == .operator || t.kind == .keyword) && t.text == text

/-- Takes a sign or a keyword. -/
def word (text : String) : P Token :=
  token (isWord text)

/-- Takes one of several signs or keywords. -/
def wordOf (texts : List String) : P Token :=
  token fun t => (t.kind == .operator || t.kind == .keyword) && texts.contains t.text

def ofKind (kind : TokenKind) : P Token :=
  token fun t => t.kind == kind

/-- Takes a name that is a keyword only in its place. -/
def softWord (text : String) : P Token :=
  token fun t => t.kind == .name && t.text == text

def require (text : String) : P Unit := do
  let t ← peek
  if isWord text t then
    let _ ← word text
  else raiseAt t.line s!"expected '{text}'"

/-- The brackets that were open after the last token taken. -/
def lastLevel : P Nat :=
  fun e s => .yes (((e.words.tokens[s.mark - 1]?).map Token.level).getD 0) s

/-- Takes an identifier: its line and its normal form. -/
def identifier : P (Nat × String) := do
  let t ← ofKind .name
  return (t.line, Text.identifierForm t.text)

/-- Takes an identifier as an expression. -/
def name : P Expr := do
  let (line, id) ← identifier
  return .name line id

/-! ## Kept results -/

/-- Looks a rule's result up at the mark, and keeps it when it is new. -/
def keeping (r : Rule) (p : P r.result) : P r.result :=
  fun e s =>
    match peek e s with
    | .no s' => .no s'
    | .abort a => .abort a
    | .yes _ s =>
      match (s.kept[r.key s.mark]?).bind (Kept.as? r.yield) with
      | some (some (a, mark)) => .yes a { s with mark := mark }
      | some none => .no s
      | none =>
        match p e s with
        | .yes a s' =>
          .yes a { s' with kept := s'.kept.insert (r.key s.mark) ⟨r.yield, some (a, s'.mark)⟩ }
        | .no s' =>
          .no { s' with kept := s'.kept.insert (r.key s.mark) ⟨r.yield, none⟩, mark := s.mark }
        | .abort a => .abort a

end P

end CodeAtlas.Script
