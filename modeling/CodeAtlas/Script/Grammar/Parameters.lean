import CodeAtlas.Script.Grammar.Expression

/-!
# The grammar of parameters

Parameters of functions and of lambda expressions follow the same rules. They differ in what closes
them, and in that only those of functions have type hints.
-/

namespace CodeAtlas.Script.Grammar

open P

variable (g : Grammar)

/-- How parameters are written. -/
structure ParameterStyle where
  /-- What follows the last parameter. -/
  closing : String
  /-- A parameter without its default. -/
  parameter : P Parameter
  /-- A parameter for further arguments, whose type hint may be unpacked. -/
  starParameter : P Parameter
  /-- Parameters in parentheses of their own, and what is said about them. -/
  nested : P Unit
  nestedMessage : String
  /-- Gives up because a star has nothing after it. -/
  bareStar : (line : Nat) → String → P Unit

def hint (value : P Expr) : P Expr := do
  let _ ← word ":"
  value

def defaultValue : P Expr :=
  (do let _ ← word "="; g .expression) <|>
  explain (do
    let t ← word "="
    ahead (wordOf [")", ","])
    raiseAt t.line "expected default value expression")

namespace ParameterStyle

variable (s : ParameterStyle)

/-- What follows a parameter: a comma, or the end that stays. -/
def ending : P Unit :=
  (do let _ ← word ",") <|> ahead (word s.closing)

/-- A parameter without a default, and what follows it. -/
def plain : P Parameter := do
  let p ← s.parameter
  s.ending
  return p

def withDefault (value : Option Expr) : Parameter → Parameter
  | .mk line id hint _ => .mk line id hint value

def defaulted : P Parameter := do
  let p ← s.parameter
  let value ← defaultValue g
  s.ending
  return withDefault (some value) p

/-- A parameter with or without a default, and what follows it. -/
def either : P Parameter := do
  let p ← s.parameter
  let value ← optional (defaultValue g)
  s.ending
  return withDefault value p

/-- The slash after parameters given by position only, and what follows it. -/
def slash : P Unit := do
  let _ ← word "/"
  s.ending

/-- Parameters given by position only, none with a default. -/
def slashPlain : P (List Parameter) := do
  let ps ← many1 s.plain
  s.slash
  return ps

/-- Parameters given by position only, the last with defaults. -/
def slashDefaulted : P (List Parameter) := do
  let ps ← many s.plain
  let ds ← many1 (s.defaulted g)
  s.slash
  return ps ++ ds

/-- What stands after the parameters that can be given by position. -/
abbrev Tail := Option Parameter × List Parameter × Option Parameter

/-- The parameter for further named arguments. -/
def doubleStar : P Parameter :=
  explain
    ((do
      let _ ← word "**"
      let _ ← s.parameter
      let t ← word "="
      raiseAt t.line "var-keyword argument cannot have default value") <|>
    (do
      let _ ← word "**"
      let _ ← s.parameter
      let _ ← word ","
      let p ← s.parameter
      raiseAt p.line "arguments cannot follow var-keyword argument") <|>
    (do
      let _ ← word "**"
      let _ ← s.parameter
      let _ ← word ","
      let t ← wordOf ["*", "**", "/"]
      raiseAt t.line "arguments cannot follow var-keyword argument")) <|>
  (do
    let _ ← word "**"
    s.plain)

/-- A star that is followed by something that makes no sense. -/
def badStar : P Unit :=
  (do
    let t ← word "*"
    (do let _ ← word s.closing) <|> (do
      let _ ← word ","
      let _ ← wordOf [s.closing, "**"])
    s.bareStar t.line "named arguments must follow bare *") <|>
  (do
    let _ ← word "*"
    let _ ← s.parameter
    let t ← word "="
    raiseAt t.line "var-positional argument cannot have default value") <|>
  (do
    let _ ← word "*"
    (do let _ ← s.plain) <|> (do let _ ← word ",")
    let _ ← many (s.either g)
    let t ← word "*"
    (do let _ ← s.plain) <|> (do let _ ← word ",")
    raiseAt t.line "* argument may appear only once")

def star : P Tail :=
  explain (s.badStar g) <|>
  (do
    let _ ← word "*"
    let rest ← s.plain
    let named ← many (s.either g)
    return (some rest, named, ← optional s.doubleStar)) <|>
  (do
    let _ ← word "*"
    let rest ← s.starParameter
    s.ending
    let named ← many (s.either g)
    return (some rest, named, ← optional s.doubleStar)) <|>
  (do
    let _ ← word "*"
    let _ ← word ","
    let named ← many1 (s.either g)
    return (none, named, ← optional s.doubleStar)) <|>
  (do return (none, [], some (← s.doubleStar)))

def assemble (positional ordinary : List Parameter) (tail : Option Tail) : Parameters :=
  let (rest, named, namedRest) := tail.getD (none, [], none)
  .mk positional ordinary rest named namedRest

/-- Parameters in an order that makes sense. -/
def ordered : P Parameters :=
  (do
    let positional ← s.slashPlain
    let ps ← many s.plain
    let ds ← many (s.defaulted g)
    return assemble positional (ps ++ ds) (← optional (s.star g))) <|>
  (do
    let positional ← s.slashDefaulted g
    let ds ← many (s.defaulted g)
    return assemble positional ds (← optional (s.star g))) <|>
  (do
    let ps ← many1 s.plain
    let ds ← many (s.defaulted g)
    return assemble [] (ps ++ ds) (← optional (s.star g))) <|>
  (do
    let ds ← many1 (s.defaulted g)
    return assemble [] ds (← optional (s.star g))) <|>
  (do return assemble [] [] (some (← s.star g)))

/-- Parameters in an order that makes none. -/
def disordered : P Unit :=
  (do
    let _ ← many s.plain
    (do let _ ← s.slashDefaulted g) <|> (do let _ ← many1 (s.defaulted g))
    let p ← s.plain
    raiseAt p.line "non-default argument follows default argument") <|>
  (do
    let _ ← many s.plain
    let t ← word "("
    s.nested
    let _ ← optional (word ",")
    let _ ← word ")"
    raiseAt t.line s.nestedMessage) <|>
  (do
    let t ← word "/"
    let _ ← word ","
    raiseAt t.line "at least one argument must precede /") <|>
  (do
    let _ ← s.slashPlain <|> s.slashDefaulted g
    let _ ← many (s.either g)
    let t ← word "/"
    raiseAt t.line "/ may appear only once") <|>
  (do
    let _ ← optional (s.slashPlain <|> s.slashDefaulted g)
    let _ ← many (s.either g)
    let _ ← word "*"
    (do let _ ← word ",") <|> (do let _ ← s.plain)
    let _ ← many (s.either g)
    let t ← word "/"
    raiseAt t.line "/ must be ahead of *") <|>
  (do
    let _ ← many1 (s.either g)
    let _ ← word "/"
    let t ← word "*"
    raiseAt t.line "expected comma between / and *")

def parameters : P Parameters :=
  explain (s.disordered g) <|> s.ordered g

end ParameterStyle

def functionStyle : ParameterStyle where
  closing := ")"
  parameter := do
    let (line, id) ← identifier
    return .mk line id (← optional (hint (g .expression))) none
  starParameter := do
    let (line, id) ← identifier
    return .mk line id (some (← hint (g .starExpression))) none
  nested := do
    let _ ← many1 (do
      let (line, id) ← identifier
      let h ← optional (hint (g .expression))
      (do let _ ← word ",") <|> ahead (word ")")
      return Parameter.mk line id h none)
  nestedMessage := "Function parameters cannot be parenthesized"
  bareStar := raiseAt

def lambdaStyle : ParameterStyle where
  closing := ":"
  parameter := do
    let (line, id) ← identifier
    return .mk line id none none
  starParameter := fail
  nested := do
    let _ ← separated (word ",") identifier
  nestedMessage := "Lambda expression parameters cannot be parenthesized"
  bareStar := fun _ => raise

end CodeAtlas.Script.Grammar
