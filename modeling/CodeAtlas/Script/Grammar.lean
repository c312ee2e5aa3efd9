import CodeAtlas.Script.Grammar.Statement
import CodeAtlas.Script.Lexer

/-!
# Reading a module

The rules of the grammar, tied together with a bound on nesting, and the choice of the fault that is
reported: the words of a text come first, then what a rule has to say, then where reading stopped.
-/

namespace CodeAtlas.Script

namespace Grammar

/-- The rules by name, given a table for the rules below them. -/
def body (g : Grammar) : Grammar
  | .expression => P.keeping .expression (expression g)
  | .starExpression => P.keeping .starExpression (starExpression g)
  | .starExpressions => starExpressions g
  | .starNamed => starNamed g
  | .named => named g
  | .disjunction => P.keeping .disjunction (disjunction g)
  | .conjunction => P.keeping .conjunction (conjunction g)
  | .inversion => P.keeping .inversion (inversion g)
  | .bitOr => P.keeping .bitOr (bitOr g)
  | .bitXor => P.keeping .bitXor (bitXor g)
  | .bitAnd => P.keeping .bitAnd (bitAnd g)
  | .shift => P.keeping .shift (shift g)
  | .sum => P.keeping .sum (sum g)
  | .term => P.keeping .term (term g)
  | .factor => P.keeping .factor (factor g)
  | .awaited => P.keeping .awaited (awaited g)
  | .primary => P.keeping .primary (primary g)
  | .strings => P.keeping .strings strings
  | .slices => slices g
  | .yielded => yielded g
  | .generator => generator g
  | .listDisplay => listDisplay g
  | .tupleDisplay => tupleDisplay g
  | .plainExpression => P.withoutExplaining (bareExpression g)
  | .clauses => clauses g
  | .arguments => P.keeping .arguments (arguments g)
  | .keywordArguments => keywordArguments g
  | .lambdaParameters => lambdaStyle.parameters g
  | .parameters => (functionStyle g).parameters g
  | .starTarget => P.keeping .starTarget (starTarget g)
  | .starAtomTarget => P.keeping .starAtomTarget (starAtomTarget g)
  | .targetPrimary => P.keeping .targetPrimary (targetPrimary g)
  | .singleTarget => singleTarget g
  | .delTarget => P.keeping .delTarget (delTarget g)
  | .annotatedTuple => annotatedTuple g
  | .closedPattern => P.keeping .closedPattern (closedPattern g)
  | .starPattern => P.keeping .starPattern starPattern
  | .pattern => pattern g
  | .simpleStatement => P.keeping .simpleStatement (simpleStatement g)
  | .statements => statements g
  | .block => P.keeping .block (block g)
  | .elifBranch => branch g "elif"
  | .misnamed => P.keeping .misnamed (misnamed g)

/-- The rules with a bound on nesting. -/
def upTo : (depth : Nat) → Grammar
  | 0 => fun _ _ _ => .abort .tooDeep
  | depth + 1 => fun r => body (upTo depth) r

/-- How deep rules may be nested. -/
def depthLimit : Nat := 6000

end Grammar

/-! ## Choosing a fault -/

/-- The fault of an abort, once the words that were not looked at have been heard: a word that is
none comes first, and so does a bracket that was never closed, unless the fault is on its line or
before it. -/
def Abort.afterWords (e : Env) : Abort → Abort
  | .rule f last =>
    match e.words.trouble with
    | some (.word w, _) => .words w
    | some (_, o :: _) =>
      if o.2 < last then .words ⟨P.Env.wording e o.fault.message, o.fault.line⟩ else .rule f last
    | _ => .rule f last
  | other => other

/-- The abort of a text that no rule had anything to say about: the last token that was looked at
tells what is wrong. -/
def unexplained (e : Env) (seen : Nat) (s : State) : Abort :=
  let last := (e.words.tokens[seen - 1]?).getD default
  let here := P.lastLine e s
  match last.kind with
  | .indent => .words ⟨P.Env.wording e "unexpected indent", here⟩
  | .dedent => .words ⟨P.Env.wording e "unexpected unindent", here⟩
  | _ => Abort.afterWords e (.rule ⟨P.Env.wording e "invalid syntax", last.line⟩ here)

/-- Reads a text, a second time with explanations if the first time fails. -/
def read {α : Type} (e : Env) (start : P α) : Except Abort α :=
  match start e ⟨0, 0, false, {}⟩ with
  | .yes a _ => .ok a
  | .abort a => .error (a.afterWords e)
  | .no first =>
    match start e ⟨0, first.seen, true, {}⟩ with
    | .abort a => .error (a.afterWords e)
    | .yes _ s | .no s => .error (unexplained e first.seen s)

/-- Reads the text of a replacement field. A field in a field is shorter, so the length of the text
bounds the recursion. -/
def readField : (fuel : Nat) → Nat → List Char → Except Abort Expr
  | 0, _, _ => .error .tooDeep
  | fuel + 1, line, text =>
    read ⟨wordsFrom line text, true, readField fuel⟩
      (Grammar.upTo Grammar.depthLimit .starExpressions)

def readModule (text : List Char) : Except Abort Module :=
  read ⟨wordsFrom 1 text, false, readField text.length⟩
    (Grammar.module (Grammar.upTo Grammar.depthLimit))

/-- Why a text is no module. -/
inductive ReadError where
  /-- The text holds the character with code zero. -/
  | nullCharacter
  | faulty (fault : Fault)
  | tooDeep
  deriving DecidableEq, Repr

def ReadError.message : ReadError → String
  | .nullCharacter => "source code string cannot contain null bytes"
  | .faulty f => f.message ++ s!" (<unknown>, line {f.line})"
  | .tooDeep => ""

def parse (text : List Char) : Except ReadError Module :=
  if text.contains '\x00' then .error .nullCharacter
  else
    (readModule text).mapError fun
      | .words f | .rule f _ => .faulty f
      | .tooDeep => .tooDeep

end CodeAtlas.Script
