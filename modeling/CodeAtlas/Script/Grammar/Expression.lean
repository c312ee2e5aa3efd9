import CodeAtlas.Script.Grammar.Describe
import CodeAtlas.Script.Template

/-!
# The grammar of expressions

From the loosest binding to the tightest: conditional expressions, connectives, comparisons, the
operators with their precedences, calls and subscripts, and the atoms. Choices that only explain a
mistake stand where the mistake would be met.
-/

namespace CodeAtlas.Script.Grammar

open P

variable (g : Grammar)

/-! ## Operators -/

/-- A rule for operators of one precedence that associate to the left. -/
def leftward (operand : P Expr) (ops : List (String × BinaryOp)) : P Expr := do
  let line ← line
  let first ← operand
  grow (fun left => do
    let t ← wordOf (ops.map Prod.fst)
    let right ← operand
    return .binary line left ((ops.lookup t.text).getD .add) right) first

def bitOr : P Expr :=
  leftward (g .bitXor) [("|", .bitOr)]

def bitXor : P Expr :=
  leftward (g .bitAnd) [("^", .bitXor)]

def bitAnd : P Expr :=
  leftward (g .shift) [("&", .bitAnd)]

def shift : P Expr :=
  leftward (g .sum) [("<<", .shiftLeft), (">>", .shiftRight)]

def sum : P Expr :=
  leftward (g .term) [("+", .add), ("-", .subtract)]

/-- Products and quotients. -/
def term : P Expr :=
  leftward (g .factor)
    [("*", .multiply), ("/", .divide), ("//", .floorDivide), ("%", .modulo), ("@", .matrixMultiply)]

/-- Powers, whose exponent may have a sign. -/
def power : P Expr := do
  let line ← line
  let base ← g .awaited
  (do
    let _ ← word "**"
    return .binary line base .power (← g .factor)) <|> pure base

/-- Signs before an operand. -/
def factor : P Expr := do
  let line ← line
  (do let _ ← word "+"; return .unary line .plus (← g .factor)) <|>
  (do let _ ← word "-"; return .unary line .minus (← g .factor)) <|>
  (do let _ ← word "~"; return .unary line .invert (← g .factor)) <|>
  power g

/-- The comparison that stands next. -/
def compareOp : P CompareOp :=
  (do let _ ← word "=="; return .equal) <|>
  (do let _ ← word "!="; return .notEqual) <|>
  (do let _ ← word "<="; return .lessOrEqual) <|>
  (do let _ ← word "<"; return .less) <|>
  (do let _ ← word ">="; return .greaterOrEqual) <|>
  (do let _ ← word ">"; return .greater) <|>
  (do let _ ← word "not"; let _ ← word "in"; return .notMember) <|>
  (do let _ ← word "in"; return .member) <|>
  (do let _ ← word "is"; let _ ← word "not"; return .notSame) <|>
  (do let _ ← word "is"; return .same)

def comparison : P Expr := do
  let line ← line
  let left ← g .bitOr
  let rest ← many (do return (← compareOp, ← g .bitOr))
  return if rest.isEmpty then left else .comparison line left rest

def inversion : P Expr := do
  let line ← line
  (do let _ ← word "not"; return .unary line .negation (← g .inversion)) <|> comparison g

def connective (text : String) (op : BoolOp) (operand : P Expr) : P Expr := do
  let line ← line
  let first ← operand
  let rest ← many (do let _ ← word text; operand)
  return if rest.isEmpty then first else .connective line op (first :: rest)

def conjunction : P Expr :=
  connective "and" .conjunction (g .inversion)

def disjunction : P Expr :=
  connective "or" .disjunction (g .conjunction)

/-! ## Expressions -/

/-- A function without a name. -/
def lambda : P Expr := do
  let t ← word "lambda"
  let parameters ← optional (g .lambdaParameters)
  let _ ← word ":"
  return .lambda t.line (parameters.getD default) (← g .expression)

/-- An expression without explanations of its own. -/
def bareExpression : P Expr :=
  (do
    let line ← line
    let body ← g .disjunction
    let _ ← word "if"
    let test ← g .disjunction
    let _ ← word "else"
    return .conditional line body test (← g .expression)) <|>
  g .disjunction <|>
  lambda g

/-- Two expressions side by side in brackets, or half a conditional expression. -/
def misplacedExpression : P Unit :=
  settled
    (do
      notAhead ((do let _ ← ofKind .name; let _ ← ofKind .string) <|>
        (do let _ ← token fun t => t.kind == .name && beginsSoftKeyword t.text))
      let first ← g .disjunction
      let _ ← g .plainExpression
      return first)
    (fun first => do
      if first.isOldStatement || (← lastLevel) = 0 then fail
      else raiseAt first.line "invalid syntax. Perhaps you forgot a comma?")
    (do
      let body ← g .disjunction
      let _ ← word "if"
      let _ ← g .disjunction
      notAhead (wordOf ["else", ":"])
      raiseAt body.line "expected 'else' after 'if' expression")

/-- A statement of old without the parentheses of a call. -/
def oldStatement : P Unit := do
  let (line, id) ← identifier
  notAhead (word "(")
  let _ ← g .starExpressions
  if id == "print" || id == "exec" then
    raiseAt line s!"Missing parentheses in call to '{id}'. Did you mean {id}(...)?"
  else fail

def expression : P Expr :=
  explain (misplacedExpression g) <|> explain (oldStatement g) <|> bareExpression g

def starred (operand : P Expr) : P Expr := do
  let t ← word "*"
  return .starred t.line (← operand)

/-- One expression of a list that may hold unpacked ones. -/
def starExpression : P Expr :=
  starred (g .bitOr) <|> g .expression

/-- Expressions between commas: one alone, or a tuple. -/
def commaTuple (item : P Expr) : P Expr := do
  let line ← line
  let first ← item
  let rest ← many (do let _ ← word ","; item)
  let comma ← optional (word ",")
  return if rest.isEmpty && comma.isNone then first else .tuple line (first :: rest)

/-- Expressions between commas, some of them perhaps unpacked. -/
def starExpressions : P Expr :=
  commaTuple (g .starExpression)

/-- Expressions between commas, none of them unpacked. -/
def expressions : P Expr :=
  commaTuple (g .expression)

/-- An assignment inside an expression. -/
def walrus : P Expr := do
  let (line, id) ← identifier
  let _ ← word ":="
  return .walrus line (.name line id) (← g .expression)

/-- An assignment where an expression or a comparison is meant. -/
def misnamed : P Unit :=
  (do
    let target ← g .expression
    let _ ← word ":="
    let _ ← g .expression
    raiseAt target.line s!"cannot use assignment expressions with {target.kindName}") <|>
  (do
    let (line, _) ← identifier
    let _ ← word "="
    let _ ← g .bitOr
    notAhead (wordOf ["=", ":="])
    raiseAt line "invalid syntax. Maybe you meant '==' or ':=' instead of '='?") <|>
  (do
    notAhead ((do let _ ← g .listDisplay) <|> (do let _ ← g .tupleDisplay) <|>
      (do let _ ← g .generator) <|> (do let _ ← wordOf ["True", "None", "False"]))
    let target ← g .bitOr
    let _ ← word "="
    let _ ← g .bitOr
    notAhead (wordOf ["=", ":="])
    raiseAt target.line
      s!"cannot assign to {target.kindName} here. Maybe you meant '==' instead of '='?")

/-- An expression that may be an assignment inside an expression. -/
def named : P Expr :=
  walrus g <|> explain (g .misnamed) <|> (do
    let e ← g .expression
    notAhead (word ":=")
    return e)

/-- The same, where misplaced assignments are explained elsewhere. -/
def plainNamed : P Expr :=
  walrus g <|> (do
    let e ← g .expression
    notAhead (word ":=")
    return e)

def starNamed : P Expr :=
  starred (g .bitOr) <|> g .named

def starNamedItems : P (List Expr) := do
  let items ← separated (word ",") (g .starNamed)
  let _ ← optional (word ",")
  return items

def yielded : P Expr :=
  (do
    let t ← word "yield"
    let _ ← word "from"
    return .yieldFrom t.line (← g .expression)) <|>
  (do
    let t ← word "yield"
    return .yield t.line (← optional (g .starExpressions)))

/-! ## Comprehensions -/

/-- The clause after `for`: a target, a source and conditions. -/
def clauseRest (isAsync : Bool) (target : Expr) : P Clause := do
  let source ← g .disjunction
  let conditions ← many (do let _ ← word "if"; g .disjunction)
  return .mk isAsync target source conditions

def starTargets : P Expr := do
  let line ← line
  let first ← g .starTarget
  (do notAhead (word ","); return first) <|> (do
    let rest ← many (do let _ ← word ","; g .starTarget)
    let _ ← optional (word ",")
    return .tuple line (first :: rest))

def badLoopTarget : P Unit := do
  let _ ← optional (word "async")
  let _ ← word "for"
  blameTarget .looped (← g .starExpressions)

def clause : P Clause :=
  settled
    (do
      let _ ← word "async"
      let _ ← word "for"
      let target ← starTargets g
      let _ ← word "in"
      return target)
    (clauseRest g true)
    (settled
      (do
        let _ ← word "for"
        let target ← starTargets g
        let _ ← word "in"
        return target)
      (clauseRest g false)
      (explain (badLoopTarget g)))

def clauses : P (List Clause) :=
  many1 (clause g)

/-- An unpacked argument. A star with nothing to unpack is a fault wherever it is met. -/
def starredArgument : P Expr :=
  starred (g .expression) <|> (do
    let _ ← word "*"
    raise "Invalid star expression")

/-- A comprehension whose element is unpacked, or a tuple without parentheses. -/
def badComprehension : P Unit :=
  (do
    let _ ← wordOf ["[", "(", "\x7b"]
    let element ← starredArgument g
    let _ ← g .clauses
    raiseAt element.line "iterable unpacking cannot be used in comprehension") <|>
  (do
    let _ ← wordOf ["[", "\x7b"]
    let element ← g .starNamed
    let _ ← word ","
    let _ ← starNamedItems g
    let _ ← g .clauses
    raiseAt element.line "did you forget parentheses around the comprehension target?") <|>
  (do
    let _ ← wordOf ["[", "\x7b"]
    let element ← g .starNamed
    let _ ← word ","
    let _ ← g .clauses
    raiseAt element.line "did you forget parentheses around the comprehension target?")

def generator : P Expr :=
  (do
    let t ← word "("
    let element ← plainNamed g
    let clauses ← g .clauses
    let _ ← word ")"
    return .generator t.line element clauses) <|>
  explain (badComprehension g)

def comprehension (opening closing : String) (make : Nat → Expr → List Clause → Expr) : P Expr :=
  (do
    let t ← word opening
    let element ← g .named
    let clauses ← g .clauses
    let _ ← word closing
    return make t.line element clauses) <|>
  explain (badComprehension g)

/-! ## Displays -/

def listDisplay : P Expr := do
  let t ← word "["
  let items ← optional (starNamedItems g)
  let _ ← word "]"
  return .list t.line (items.getD [])

def tupleDisplay : P Expr := do
  let t ← word "("
  let items ← optional (do
    let first ← g .starNamed
    let _ ← word ","
    return first :: ((← optional (starNamedItems g)).getD []))
  let _ ← word ")"
  return .tuple t.line (items.getD [])

def setDisplay : P Expr := do
  let t ← word "\x7b"
  let items ← starNamedItems g
  let _ ← word "\x7d"
  return .set t.line items

def pair : P (Option Expr × Expr) := do
  let key ← g .expression
  let _ ← word ":"
  return (some key, ← g .expression)

def dictionaryItem : P (Option Expr × Expr) :=
  (do let _ ← word "**"; return (none, ← g .bitOr)) <|> pair g

/-- A key without a value that makes sense. -/
def badValue : P Unit :=
  (do
    let _ ← g .expression
    let _ ← word ":"
    let star ← word "*"
    let _ ← g .bitOr
    raiseAt star.line "cannot use a starred expression in a dictionary value") <|>
  (do
    let _ ← g .expression
    let colon ← word ":"
    ahead (wordOf ["\x7d", ","])
    raiseAt colon.line "expression expected after dictionary key and ':'")

/-- Items of a dictionary of which one is no pair. -/
def badItems : P Unit :=
  (do
    let _ ← separated (word ",") (dictionaryItem g)
    let _ ← word ","
    (do
      let key ← g .expression
      notAhead (word ":")
      raiseAt key.line "':' expected after dictionary key") <|> badValue g) <|>
  badValue g

/-- A dictionary of items. An item that is no pair is a fault wherever it is met. -/
def dictionaryDisplay : P Expr :=
  (do
    let t ← word "\x7b"
    let items ← optional (do
      let items ← separated (word ",") (dictionaryItem g)
      let _ ← optional (word ",")
      return items)
    let _ ← word "\x7d"
    return .dictionary t.line (items.getD [])) <|>
  (do
    let _ ← word "\x7b"
    badItems g
    fail)

def dictionaryOver : P Expr :=
  (do
    let t ← word "\x7b"
    let (key, value) ← pair g
    let clauses ← g .clauses
    let _ ← word "\x7d"
    return .dictionaryOver t.line (key.getD value) value clauses) <|>
  explain (do
    let _ ← word "\x7b"
    let stars ← word "**"
    let _ ← g .bitOr
    let _ ← g .clauses
    let _ ← word "\x7d"
    raiseAt stars.line "dict unpacking cannot be used in dict comprehension")

def group : P Expr :=
  (do
    let _ ← word "("
    let e ← g .yielded <|> g .named
    let _ ← word ")"
    return e) <|>
  explain
    ((do
      let _ ← word "("
      let e ← starredArgument g
      let _ ← word ")"
      raiseAt e.line "cannot use starred expression here") <|>
    (do
      let _ ← word "("
      let stars ← word "**"
      let _ ← g .expression
      let _ ← word ")"
      raiseAt stars.line "cannot use double starred expression here"))

/-! ## Atoms -/

/-- String literals side by side, which make one text. -/
def strings : P Expr :=
  fun e s =>
    match many1 (ofKind .string) e s with
    | .no s => .no s
    | .abort a => .abort a
    | .yes tokens s =>
      let mistake (message : String) : Abort := .rule ⟨message, lastLine e s⟩ (lastLine e s)
      match join e (fun m => mistake (Env.wording e m)) tokens with
      | .ok value => .yes value s
      | .error a => .abort (a.seenFrom (lastLine e s))
where
  /-- Joins literals: all of them bytes, or none. -/
  join (e : Env) (mistake : String → Abort) (tokens : List Token) : Except Abort Expr := do
    let line := (tokens.head?.map Token.line).getD 0
    let parts := tokens.map fun t => (t, stringParts t.text.toList)
    let isMarked := (parts.head?.map fun p => p.2.isMarked).getD false
    let isBytes := (parts.head?.map fun p => p.2.isBytes).getD false
    let isTemplate := parts.any fun p => p.2.isTemplate
    let (pieces, bytes) ← parts.foldlM (add e mistake isBytes) ([], [])
    if isBytes then return .constant line (.bytes bytes)
    else if isTemplate then return .template line pieces.reverse
    else
      let points := pieces.flatMap fun
        | .literal points => points
        | _ => []
      return .constant line (.text points isMarked)
  /-- Adds a literal to the pieces in reverse order, or to the bytes, so far. -/
  add (e : Env) (mistake : String → Abort) (isBytes : Bool) :
      List Piece × List Nat → Token × StringParts → Except Abort (List Piece × List Nat)
    | (pieces, bytes), (t, part) => do
      if part.isBytes then
        if part.content.any (128 ≤ ·.toNat) then
          .error (onLine t.line (mistake "bytes can only contain ASCII literal characters"))
        let more ← (byteValues part.isRaw part.content).mapError mistake
        if !isBytes then .error (mistake mixed)
        return (pieces, bytes ++ more)
      else if part.isTemplate then
        if isBytes then .error (mistake mixed)
        let reader : Template.Reader :=
          ⟨part.isRaw, mistake, fun lines text => e.field (t.line + lines) text⟩
        return (← Template.read reader pieces part.content, bytes)
      else
        let points ← (textPoints part.isRaw part.content).mapError mistake
        if isBytes then .error (mistake mixed)
        return (Template.addLiteral points pieces, bytes)
  /-- The wording for texts beside bytes. -/
  mixed : String := "cannot mix bytes and nonbytes literals"
  /-- The same fault on another line. -/
  onLine (line : Nat) : Abort → Abort
    | .rule f last => .rule { f with line := line } last
    | other => other

def numberAtom : P Expr := do
  let t ← ofKind .number
  match numberValue t.text.toList with
  | .ok value => return .constant t.line value
  | .error message => raiseAt t.line message

/-- What binds tightest. -/
def atom : P Expr := do
  let t ← peek
  match t.kind with
  | .name => name
  | .string => g .strings
  | .number => numberAtom
  | .keyword =>
    match t.text with
    | "True" => do let _ ← word "True"; return .constant t.line (.truth true)
    | "False" => do let _ ← word "False"; return .constant t.line (.truth false)
    | "None" => do let _ ← word "None"; return .constant t.line .nothing
    | _ => fail
  | .operator =>
    match t.text with
    | "(" => g .tupleDisplay <|> group g <|> g .generator
    | "[" => g .listDisplay <|> comprehension g "[" "]" .listOver
    | "\x7b" =>
      dictionaryDisplay g <|> setDisplay g <|> dictionaryOver g <|>
        comprehension g "\x7b" "\x7d" .setOver
    | "..." => do let _ ← word "..."; return .constant t.line .ellipsis
    | _ => fail
  | _ => fail

/-! ## Calls, attributes, subscripts -/

def slice : P Expr :=
  (do
    let line ← line
    let lower ← optional (g .expression)
    let _ ← word ":"
    let upper ← optional (g .expression)
    let step ← optional (do let _ ← word ":"; optional (g .expression))
    return .slice line lower upper (step.getD none)) <|>
  g .named

/-- What stands between the brackets of a subscript. -/
def slices : P Expr := do
  let line ← line
  (do
    let one ← slice g
    notAhead (word ",")
    return one) <|>
  (do
    let items ← separated (word ",") (slice g <|> starredArgument g)
    let _ ← optional (word ",")
    return .tuple line items)

def callArguments : P Arguments := do
  let _ ← word "("
  let arguments ← optional (g .arguments)
  let _ ← word ")"
  return arguments.getD ([], [])

/-- Attributes, calls and subscripts after an atom. -/
def primary : P Expr := do
  let line ← line
  let first ← atom g
  grow (fun value =>
    (do
      let _ ← word "."
      let (_, id) ← identifier
      return .attribute line value id) <|>
    (do return .call line value [← g .generator] []) <|>
    (do
      let (arguments, keywords) ← callArguments g
      return .call line value arguments keywords) <|>
    (do
      let _ ← word "["
      let index ← g .slices
      let _ ← word "]"
      return .subscript line value index)) first

def awaited : P Expr :=
  (do
    let t ← word "await"
    return .await t.line (← g .primary)) <|>
  g .primary

/-- A keyword argument that is none. -/
def badKeyword : P Unit :=
  (do
    let t ← wordOf ["True", "False", "None"]
    let _ ← word "="
    raiseAt t.line s!"cannot assign to {t.text}") <|>
  (do
    let (line, _) ← identifier
    let _ ← word "="
    let _ ← g .expression
    let _ ← g .clauses
    raiseAt line "invalid syntax. Maybe you meant '==' or ':=' instead of '='?") <|>
  (do
    notAhead (do let _ ← ofKind .name; word "=")
    let e ← g .expression
    let _ ← word "="
    raiseAt e.line "expression cannot contain assignment, perhaps you meant \"==\"?")

def keyword : P Arguments := do
  let (_, id) ← identifier
  let _ ← word "="
  return ([], [.mk (some id) (← g .expression)])

def keywordOrStarred : P Arguments :=
  explain (badKeyword g) <|> keyword g <|> (do return ([← starredArgument g], []))

/-- An argument by name or unpacked names. -/
def keywordOrDoubleStarred : P Arguments :=
  explain (badKeyword g) <|> keyword g <|>
    (do let _ ← word "**"; return ([], [.mk none (← g .expression)]))

def joinArguments (parts : List Arguments) : Arguments :=
  (parts.flatMap Prod.fst, parts.flatMap Prod.snd)

/-- Arguments by name, mixed with unpacked ones and followed by unpacked names. -/
def keywordArguments : P Arguments :=
  (do
    let first ← separated (word ",") (keywordOrStarred g)
    let _ ← word ","
    let second ← separated (word ",") (keywordOrDoubleStarred g)
    return joinArguments (first ++ second)) <|>
  (do return joinArguments (← separated (word ",") (keywordOrStarred g))) <|>
  (do return joinArguments (← separated (word ",") (keywordOrDoubleStarred g)))

def positionalArguments : P (List Expr) :=
  separated (word ",") (starredArgument g <|> (do
    let e ← plainNamed g
    notAhead (word "=")
    return e))

/-- Arguments by position and then by name. -/
def argumentList : P Arguments :=
  (do
    let positional ← positionalArguments g
    let (starred, keywords) := (← optional (do let _ ← word ","; g .keywordArguments)).getD ([], [])
    return (positional ++ starred, keywords)) <|>
  g .keywordArguments

def badArguments : P Unit := do
  let line ← line
  (do
    let _ ← (do
      let _ ← positionalArguments g
      let _ ← word ","
      g .keywordArguments) <|> g .keywordArguments
    let comma ← word ","
    let _ ← separated (word ",") (do
      let _ ← starredArgument g
      notAhead (word "="))
    raiseAt comma.line "iterable argument unpacking follows keyword argument unpacking") <|>
  (do
    let e ← g .expression
    let _ ← g .clauses
    let _ ← word ","
    let _ ← optional ((do let _ ← argumentList g) <|>
      (do let _ ← g .expression; let _ ← g .clauses))
    raiseAt e.line unparenthesised) <|>
  (do
    let (line, _) ← identifier
    let _ ← word "="
    let _ ← g .expression
    let _ ← g .clauses
    raiseAt line "invalid syntax. Maybe you meant '==' or ':=' instead of '='?") <|>
  settled
    (do
      let arguments ← argumentList g
      let _ ← g .clauses
      return arguments)
    (fun (positional, _) =>
      if positional.length ≤ 1 then fail
      else raiseAt ((positional.getLast?.map Expr.line).getD line) unparenthesised)
    ((do
      let _ ← argumentList g
      let _ ← word ","
      let e ← g .expression
      let _ ← g .clauses
      raiseAt e.line unparenthesised) <|>
    (do
      let (_, keywords) ← argumentList g
      let _ ← word ","
      let _ ← argumentList g
      raise (if keywords.any (·.id.isNone) then
        "positional argument follows keyword argument unpacking"
      else "positional argument follows keyword argument")))
where
  /-- The wording for a generator among other arguments. -/
  unparenthesised : String := "Generator expression must be parenthesized"

def arguments : P Arguments :=
  (do
    let found ← argumentList g
    let _ ← optional (word ",")
    ahead (word ")")
    return found) <|>
  explain (badArguments g)

end CodeAtlas.Script.Grammar
