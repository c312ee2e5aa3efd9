import CodeAtlas.Script.Parser

/-!
# Naming expressions in messages

What an expression is called when it stands where it must not, and which part of a target is to
blame.
-/

namespace CodeAtlas.Script

def Expr.kindName : Expr → String
  | .attribute .. => "attribute"
  | .subscript .. => "subscript"
  | .starred .. => "starred"
  | .name .. => "name"
  | .list .. => "list"
  | .tuple .. => "tuple"
  | .lambda .. => "lambda"
  | .call .. => "function call"
  | .connective .. | .binary .. | .unary .. => "expression"
  | .generator .. => "generator expression"
  | .yield .. | .yieldFrom .. => "yield expression"
  | .await .. => "await expression"
  | .listOver .. => "list comprehension"
  | .setOver .. => "set comprehension"
  | .dictionaryOver .. => "dict comprehension"
  | .dictionary .. => "dict literal"
  | .set .. => "set display"
  | .template .. => "f-string expression"
  | .constant _ value =>
    match value with
    | .nothing => "None"
    | .truth true => "True"
    | .truth false => "False"
    | .ellipsis => "ellipsis"
    | _ => "literal"
  | .comparison .. => "comparison"
  | .conditional .. => "conditional expression"
  | .walrus .. => "named expression"
  | .slice .. => "slice"

/-- Whether an expression is the name of a statement of old that is a function now. -/
def Expr.isOldStatement : Expr → Bool
  | .name _ id => id == "print" || id == "exec"
  | _ => false

/-- What targets are for. -/
inductive TargetUse where
  | assigned
  | deleted
  | looped
  deriving DecidableEq

mutual

def Expr.badTarget? (use : TargetUse) : Expr → Option Expr
  | .list _ items => badTargetOf? use items
  | .tuple _ items => badTargetOf? use items
  | .starred line value =>
    if use = .deleted then some (.starred line value) else value.badTarget? use
  | .comparison line left rest =>
    if use = .looped then
      -- what a loop runs over was read as the other side of a comparison
      if (rest.head?.map Prod.fst) = some .member then left.badTarget? use else none
    else some (.comparison line left rest)
  | .name .. | .subscript .. | .attribute .. => none
  | e => some e

/-- The first bad part among several expressions. -/
def badTargetOf? (use : TargetUse) : List Expr → Option Expr
  | [] => none
  | e :: rest =>
    match e.badTarget? use with
    | some bad => some bad
    | none => badTargetOf? use rest

end

/-- Gives up if an expression is no target for a use, and fails otherwise. -/
def blameTarget (use : TargetUse) (e : Expr) : P Unit :=
  match e.badTarget? use with
  | none => P.fail
  | some bad =>
    P.raiseAt bad.line
      ((if use = .deleted then "cannot delete " else "cannot assign to ") ++ bad.kindName)

end CodeAtlas.Script
