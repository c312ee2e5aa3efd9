import CodeAtlas.Script.Grammar.Expression

/-!
# The grammar of targets

What can be assigned to or deleted: names, attributes, subscripts, and lists of targets. The last
attribute or subscript of a chain is the target, all before it is an expression.
-/

namespace CodeAtlas.Script.Grammar

open P

variable (g : Grammar)

def chainGoesOn : P Unit :=
  ahead (wordOf ["(", "[", "."])

def chainEnds : P Unit :=
  notAhead (wordOf ["(", "[", "."])

/-- The part of a chain before its last attribute or subscript. -/
def targetPrimary : P Expr := do
  let line ← line
  let first ← atom g
  chainGoesOn
  grow (fun value =>
    (do
      let _ ← word "."
      let (_, id) ← identifier
      chainGoesOn
      return .attribute line value id) <|>
    (do
      let _ ← word "["
      let index ← g .slices
      let _ ← word "]"
      chainGoesOn
      return .subscript line value index) <|>
    (do
      let argument ← g .generator
      chainGoesOn
      return .call line value [argument] []) <|>
    (do
      let (arguments, keywords) ← callArguments g
      chainGoesOn
      return .call line value arguments keywords)) first

def memberTarget : P Expr := do
  let line ← line
  (do
    let value ← g .targetPrimary
    let _ ← word "."
    let (_, id) ← identifier
    chainEnds
    return .attribute line value id) <|>
  (do
    let value ← g .targetPrimary
    let _ ← word "["
    let index ← g .slices
    let _ ← word "]"
    chainEnds
    return .subscript line value index)

/-- One target, with parentheses around it at most. -/
def singleTarget : P Expr :=
  memberTarget g <|> name <|> (do
    let _ ← word "("
    let target ← g .singleTarget
    let _ ← word ")"
    return target)

def starTarget : P Expr :=
  (do
    let t ← word "*"
    notAhead (word "*")
    return .starred t.line (← g .starTarget)) <|>
  g .starAtomTarget

def starAtomTarget : P Expr :=
  memberTarget g <|> name <|>
  (do
    let _ ← word "("
    let target ← g .starAtomTarget
    let _ ← word ")"
    return target) <|>
  (do
    let t ← word "("
    let targets ← optional (do
      let first ← g .starTarget
      (do
        let rest ← many1 (do let _ ← word ","; g .starTarget)
        let _ ← optional (word ",")
        return first :: rest) <|>
      (do
        let _ ← word ","
        return [first]))
    let _ ← word ")"
    return .tuple t.line (targets.getD [])) <|>
  (do
    let t ← word "["
    let targets ← optional (do
      let targets ← separated (word ",") (g .starTarget)
      let _ ← optional (word ",")
      return targets)
    let _ ← word "]"
    return .list t.line (targets.getD []))

def delTargets : P (List Expr) := do
  let targets ← separated (word ",") (g .delTarget)
  let _ ← optional (word ",")
  return targets

def delTarget : P Expr :=
  memberTarget g <|> name <|>
  (do
    let _ ← word "("
    let target ← g .delTarget
    let _ ← word ")"
    return target) <|>
  (do
    let t ← word "("
    let targets ← optional (delTargets g)
    let _ ← word ")"
    return .tuple t.line (targets.getD [])) <|>
  (do
    let t ← word "["
    let targets ← optional (delTargets g)
    let _ ← word "]"
    return .list t.line (targets.getD []))

/-- Several targets where only one can have a type hint. -/
def annotatedTuple : P Expr :=
  g .listDisplay <|> g .tupleDisplay <|> (do
    let _ ← word "("
    let target ← g .annotatedTuple
    let _ ← word ")"
    return target)

end CodeAtlas.Script.Grammar
