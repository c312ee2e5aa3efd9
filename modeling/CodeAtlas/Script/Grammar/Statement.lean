import CodeAtlas.Script.Grammar.Case
import CodeAtlas.Script.Grammar.Parameters
import CodeAtlas.Script.Grammar.Target

/-!
# The grammar of statements

Simple statements end with their line; compound ones have a block, which is the rest of the line or
a number of deeper lines.
-/

namespace CodeAtlas.Script.Grammar

open P

variable (g : Grammar)

/-! ## Simple statements -/

def assignedValue : P Expr :=
  g .yielded <|> g .starExpressions

def targetEquals : P Expr := do
  let target ← starTargets g
  let _ ← word "="
  return target

/-- The signs of assignments that operate. -/
def operatingSigns : List String :=
  ["+=", "-=", "*=", "@=", "/=", "%=", "&=", "|=", "^=", "<<=", ">>=", "**=", "//="]

/-- An assignment to something that cannot be assigned to. -/
def badAssignment : P Unit :=
  (do
    let target ← g .annotatedTuple
    let _ ← word ":"
    let _ ← g .expression
    raiseAt target.line s!"only single target (not {target.kindName}) can be annotated") <|>
  (do
    let target ← g .starNamed
    let _ ← word ","
    let _ ← many (starNamedItems g)
    let _ ← word ":"
    let _ ← g .expression
    raiseAt target.line "only single target (not tuple) can be annotated") <|>
  (do
    let target ← g .expression
    let _ ← word ":"
    let _ ← g .expression
    raiseAt target.line "illegal target for annotation") <|>
  settled
    (do
      let _ ← many (targetEquals g)
      let target ← g .starExpressions
      let _ ← word "="
      return target)
    (blameTarget .assigned)
    ((do
      let _ ← many (targetEquals g)
      let target ← g .yielded
      let _ ← word "="
      raiseAt target.line "assignment to yield expression not possible") <|>
    (do
      let target ← g .starExpressions
      let _ ← wordOf operatingSigns
      let _ ← assignedValue g
      raiseAt target.line
        s!"'{target.kindName}' is an illegal expression for augmented assignment"))

def hintedValue : P Unit := do
  let _ ← g .expression
  let _ ← optional (do let _ ← word "="; assignedValue g)

def assignment : P Stmt :=
  (do
    let _ ← ofKind .name
    let _ ← word ":"
    hintedValue g
    return .other) <|>
  (do
    let _ ← (do
      let _ ← word "("
      let target ← g .singleTarget
      let _ ← word ")"
      return target) <|> memberTarget g
    let _ ← word ":"
    hintedValue g
    return .other) <|>
  (do
    let targets ← many1 (targetEquals g)
    let _ ← assignedValue g
    notAhead (word "=")
    return .assignment targets) <|>
  settled
    (do
      let _ ← g .singleTarget
      let _ ← wordOf operatingSigns)
    (fun _ => do
      let _ ← assignedValue g
      return .other)
    (explain (badAssignment g))

/-- Names between points, as one. -/
def moduleName : P String := do
  return ".".intercalate ((← dottedNames).map Prod.snd)

def givenName : P String := do
  let _ ← word "as"
  return (← identifier).2

def importedNames : P (List Alias) :=
  separated (word ",") (do
    let (_, id) ← identifier
    return ⟨id, ← optional givenName⟩)

def imported : P (List Alias) :=
  (do
    let _ ← word "("
    let names ← importedNames
    let _ ← optional (word ",")
    let _ ← word ")"
    return names) <|>
  (do
    let names ← importedNames
    notAhead (word ",")
    return names) <|>
  (do let _ ← word "*"; return [⟨"*", none⟩]) <|>
  explain (do
    let _ ← importedNames
    let _ ← word ","
    let _ ← ofKind .newline
    raise "trailing comma not allowed without surrounding parentheses")

/-- The points before a module's name, and how many levels they mean. -/
def points : P (List Nat) :=
  many ((do let _ ← word "."; return 1) <|> (do let _ ← word "..."; return 3))

def importStatement : P Stmt :=
  (do
    let _ ← word "import"
    let names ← separated (word ",") (do return ⟨← moduleName, ← optional givenName⟩)
    return .importModules names) <|>
  (do
    let _ ← word "from"
    let levels ← points
    let module ← moduleName
    let _ ← word "import"
    return .importFrom (some module) (← imported) (levels.foldl Nat.add 0)) <|>
  (do
    let _ ← word "from"
    let levels ← points
    let _ ← word "import"
    if levels.isEmpty then fail
    return .importFrom none (← imported) (levels.foldl Nat.add 0))

def deletion : P Stmt :=
  (do
    let _ ← word "del"
    let _ ← delTargets g
    ahead ((do let _ ← word ";") <|> (do let _ ← ofKind .newline))
    return .other) <|>
  explain (do
    let _ ← word "del"
    blameTarget .deleted (← g .starExpressions))

/-- Names that are declared to live elsewhere. -/
def scopeStatement (text : String) : P Stmt := do
  let _ ← word text
  let _ ← separated (word ",") (ofKind .name)
  return .other

def keywordStatement (text : String) : P Stmt :=
  match text with
  | "return" => do
    let _ ← word "return"
    let _ ← optional (g .starExpressions)
    return .other
  | "import" | "from" => importStatement
  | "raise" =>
    (do
      let _ ← word "raise"
      let _ ← g .expression
      let _ ← optional (do let _ ← word "from"; g .expression)
      return .other) <|>
    (do let _ ← word "raise"; return .other)
  | "pass" => do let _ ← word "pass"; return .other
  | "del" => deletion g
  | "yield" => do return .expression (← g .yielded)
  | "assert" => do
    let _ ← word "assert"
    let _ ← g .expression
    let _ ← optional (do let _ ← word ","; g .expression)
    return .other
  | "break" => do let _ ← word "break"; return .other
  | "continue" => do let _ ← word "continue"; return .other
  | "global" => scopeStatement "global"
  | "nonlocal" => scopeStatement "nonlocal"
  | _ => fail

def simpleStatement : P Stmt :=
  assignment g <|>
  (do return .expression (← g .starExpressions)) <|>
  (do keywordStatement g (← peek).text)

def simpleStatements : P (List Stmt) :=
  (do
    let s ← g .simpleStatement
    notAhead (word ";")
    let _ ← ofKind .newline
    return [s]) <|>
  (do
    let ss ← separated (word ";") (g .simpleStatement)
    let _ ← optional (word ";")
    let _ ← ofKind .newline
    return ss)

/-! ## Blocks -/

/-- A line end after which no deeper line follows. -/
def noBlock : P Unit := do
  let _ ← ofKind .newline
  notAhead (ofKind .indent)

def missingBlock (after : String) (line : Nat) : P Unit :=
  raise s!"expected an indented block after {after} on line {line}"

/-- Gives up because a colon is missing at the end of a line. -/
def missingColon : P Unit := do
  let _ ← ofKind .newline
  raise "expected ':'"

def block : P (List Stmt) :=
  (do
    let _ ← ofKind .newline
    let _ ← ofKind .indent
    let body ← g .statements
    let _ ← ofKind .dedent
    return body) <|>
  simpleStatements g <|>
  explain (do
    noBlock
    raise "expected an indented block")

/-- Statements of a block as parts of a compound statement. -/
def parts (body : List Stmt) : List Part :=
  body.map .statement

/-! ## Conditions and loops -/

/-- A condition without its colon, or without its block. -/
def badCondition (text : String) : P Unit :=
  (do
    let _ ← word text
    let _ ← g .named
    missingColon) <|>
  (do
    let t ← word text
    let _ ← g .named
    let _ ← word ":"
    noBlock
    missingBlock s!"'{text}' statement" t.line)

def elseBlock : P (List Stmt) :=
  explain (do
    let t ← word "else"
    let _ ← word ":"
    noBlock
    missingBlock "'else' statement" t.line) <|>
  (do
    let _ ← word "else"
    require ":"
    g .block)

def elseParts : P (List Part) := do
  return parts ((← optional (elseBlock g)).getD [])

def branch (text : String) : P Stmt :=
  explain (badCondition g text) <|>
  (do
    let _ ← word text
    let _ ← g .named
    let _ ← word ":"
    let body ← g .block
    let next ← g .elifBranch
    return .compound (parts body ++ [.statement next])) <|>
  (do
    let _ ← word text
    let _ ← g .named
    let _ ← word ":"
    let body ← g .block
    return .compound (parts body ++ (← elseParts g)))

def whileLoop : P Stmt :=
  explain (badCondition g "while") <|>
  (do
    let _ ← word "while"
    let _ ← g .named
    let _ ← word ":"
    let body ← g .block
    return .compound (parts body ++ (← elseParts g)))

def loopHead : P Token := do
  let _ ← optional (word "async")
  let t ← word "for"
  let _ ← starTargets g
  let _ ← word "in"
  let _ ← g .starExpressions
  return t

/-- A loop without its colon, or without its block. -/
def badLoop : P Unit :=
  (do
    let _ ← loopHead g
    missingColon) <|>
  (do
    let t ← loopHead g
    let _ ← word ":"
    noBlock
    missingBlock "'for' statement" t.line)

def loopRest : P Stmt := do
  let _ ← g .starExpressions
  let _ ← word ":"
  let body ← g .block
  return .compound (parts body ++ (← elseParts g))

def forLoop : P Stmt :=
  explain (badLoop g) <|>
  settled
    (do
      let _ ← word "for"
      let _ ← starTargets g
      word "in")
    (fun _ => loopRest g)
    (settled
      (do
        let _ ← word "async"
        let _ ← word "for"
        let _ ← starTargets g
        word "in")
      (fun _ => loopRest g)
      (explain (badLoopTarget g)))

/-! ## Contexts -/

def contextItem : P Unit :=
  (do
    let _ ← g .expression
    let _ ← word "as"
    let _ ← g .starTarget
    ahead (wordOf [",", ")", ":"])) <|>
  explain (do
    let _ ← g .expression
    let _ ← word "as"
    let target ← g .expression
    ahead (wordOf [",", ")", ":"])
    blameTarget .assigned target) <|>
  (do let _ ← g .expression)

/-- The head of `with`, its items without parentheses around them or with. -/
def contextHead (isGrouped : Bool) : P Token := do
  let _ ← optional (word "async")
  let t ← word "with"
  let item (value : P Expr) : P Unit := do
    let _ ← value
    let _ ← optional (do let _ ← word "as"; g .starTarget)
  if isGrouped then
    let _ ← word "("
    let _ ← separated (word ",") (item (expressions g))
    let _ ← optional (word ",")
    let _ ← word ")"
  else
    let _ ← separated (word ",") (item (g .expression))
  return t

def uncolonedContext : P Unit :=
  (do let _ ← contextHead g false; missingColon) <|>
  (do let _ ← contextHead g true; missingColon)

def blocklessContext : P Unit :=
  (do
    let t ← contextHead g false
    let _ ← word ":"
    noBlock
    missingBlock "'with' statement" t.line) <|>
  (do
    let t ← contextHead g true
    let _ ← word ":"
    noBlock
    missingBlock "'with' statement" t.line)

def contextRest (start : P Unit) : P Stmt :=
  (do
    start
    let _ ← word "("
    let _ ← separated (word ",") (contextItem g)
    let _ ← optional (word ",")
    let _ ← word ")"
    let _ ← word ":"
    return .compound (parts (← g .block))) <|>
  (do
    start
    let _ ← separated (word ",") (contextItem g)
    let _ ← word ":"
    return .compound (parts (← g .block)))

def withStatement : P Stmt :=
  explain (blocklessContext g) <|>
  contextRest g (do let _ ← word "with") <|>
  contextRest g (do let _ ← word "async"; let _ ← word "with") <|>
  explain (uncolonedContext g)

/-! ## Guarded blocks -/

def caughtName : P (Option String) :=
  optional givenName

def badHandler : P Unit :=
  (do
    let _ ← word "except"
    let _ ← optional (word "*")
    let e ← g .expression
    let _ ← word ","
    let _ ← expressions g
    let _ ← caughtName
    let _ ← word ":"
    raiseAt e.line "multiple exception types must be parenthesized") <|>
  (do
    let _ ← word "except"
    let _ ← optional (word "*")
    let _ ← g .expression
    let _ ← caughtName
    missingColon) <|>
  (do
    let _ ← word "except"
    missingColon) <|>
  (do
    let _ ← word "except"
    let _ ← word "*"
    (do let _ ← ofKind .newline) <|> (do let _ ← word ":")
    raise "expected one or more exception types")

def handler : P Part :=
  explain
    ((do
      let t ← word "except"
      let _ ← g .expression
      let _ ← caughtName
      let _ ← word ":"
      noBlock
      missingBlock "'except' statement" t.line) <|>
    (do
      let t ← word "except"
      let _ ← word ":"
      noBlock
      missingBlock "'except' statement" t.line)) <|>
  (do
    let _ ← word "except"
    let _ ← g .expression
    let _ ← caughtName
    let _ ← word ":"
    return .clause (← g .block)) <|>
  (do
    let _ ← word "except"
    let _ ← word ":"
    return .clause (← g .block)) <|>
  explain (badHandler g)

def groupHandler : P Part :=
  explain (do
    let t ← word "except"
    let _ ← word "*"
    let _ ← g .expression
    let _ ← caughtName
    let _ ← word ":"
    noBlock
    missingBlock "'except*' statement" t.line) <|>
  (do
    let _ ← word "except"
    let _ ← word "*"
    let _ ← g .expression
    let _ ← caughtName
    let _ ← word ":"
    return .clause (← g .block)) <|>
  explain (badHandler g)

def finallyBlock : P (List Stmt) :=
  explain (do
    let t ← word "finally"
    let _ ← word ":"
    noBlock
    missingBlock "'finally' statement" t.line) <|>
  (do
    let _ ← word "finally"
    require ":"
    g .block)

/-- A guarded block without handlers, or with handlers of both kinds. -/
def badTry : P Unit :=
  (do
    let t ← word "try"
    let _ ← word ":"
    noBlock
    missingBlock "'try' statement" t.line) <|>
  (do
    let _ ← word "try"
    let _ ← word ":"
    let _ ← g .block
    notAhead (wordOf ["except", "finally"])
    raise "expected 'except' or 'finally' block") <|>
  (do
    let _ ← word "try"
    let _ ← word ":"
    let _ ← many (g .block)
    let _ ← many1 (handler g)
    let t ← word "except"
    let _ ← word "*"
    let _ ← g .expression
    let _ ← caughtName
    let _ ← word ":"
    raiseAt t.line mixed) <|>
  (do
    let _ ← word "try"
    let _ ← word ":"
    let _ ← many (g .block)
    let _ ← many1 (groupHandler g)
    let t ← word "except"
    let _ ← optional (do
      let _ ← g .expression
      caughtName)
    let _ ← word ":"
    raiseAt t.line mixed)
where
  /-- The wording for handlers of both kinds. -/
  mixed : String := "cannot have both 'except' and 'except*' on the same 'try'"

def guarded (handler : P Part) : P Stmt := do
  let _ ← word "try"
  require ":"
  let body ← g .block
  let handlers ← many1 handler
  let otherwise ← elseParts g
  let last ← optional (finallyBlock g)
  return .compound (parts body ++ handlers ++ otherwise ++ parts (last.getD []))

def tryStatement : P Stmt :=
  explain (badTry g) <|>
  (do
    let _ ← word "try"
    require ":"
    let body ← g .block
    let last ← finallyBlock g
    return .compound (parts body ++ parts last)) <|>
  guarded g (handler g) <|>
  guarded g (groupHandler g)

/-! ## Case distinctions -/

/-- What a case distinction looks at. -/
def subject : P Unit :=
  (do
    let _ ← g .starNamed
    let _ ← word ","
    let _ ← optional (starNamedItems g)) <|>
  (do let _ ← g .named)

def caseCondition : P Unit := do
  let _ ← optional (do let _ ← word "if"; g .named)

def caseBlock : P Part :=
  explain
    ((do
      let _ ← softWord "case"
      patterns g
      caseCondition g
      missingColon) <|>
    (do
      let t ← softWord "case"
      patterns g
      caseCondition g
      let _ ← word ":"
      noBlock
      missingBlock "'case' statement" t.line)) <|>
  (do
    let _ ← softWord "case"
    patterns g
    caseCondition g
    let _ ← word ":"
    return .clause (← g .block))

def matchStatement : P Stmt :=
  (do
    let _ ← softWord "match"
    subject g
    let _ ← word ":"
    let _ ← ofKind .newline
    let _ ← ofKind .indent
    let cases ← many1 (caseBlock g)
    let _ ← ofKind .dedent
    return .compound cases) <|>
  explain
    ((do
      let _ ← softWord "match"
      subject g
      missingColon) <|>
    (do
      let t ← softWord "match"
      subject g
      let _ ← word ":"
      noBlock
      missingBlock "'match' statement" t.line))

/-! ## Definitions -/

def decorators : P (List Expr) :=
  many1 (do
    let _ ← word "@"
    let e ← g .named
    let _ ← ofKind .newline
    return e)

def resultHint : P (Option Expr) :=
  optional (do let _ ← word "->"; g .expression)

/-- A function without its block. -/
def badFunction : P Unit := do
  let _ ← optional (word "async")
  let t ← word "def"
  let _ ← ofKind .name
  let _ ← word "("
  let _ ← optional (g .parameters)
  let _ ← word ")"
  let _ ← resultHint g
  let _ ← word ":"
  noBlock
  missingBlock "function definition" t.line

def functionRest (isAsync : Bool) (decorators : List Expr) : P Stmt := do
  let _ ← word "def"
  let (_, id) ← identifier
  require "("
  let parameters ← optional (g .parameters)
  let _ ← word ")"
  let result ← resultHint g
  require ":"
  let body ← g .block
  return .function ⟨isAsync, id, parameters.getD default, result, decorators⟩ body

def plainFunction (decorators : List Expr) : P Stmt :=
  explain (badFunction g) <|>
  functionRest g false decorators <|>
  (do
    let _ ← word "async"
    functionRest g true decorators)

def function : P Stmt :=
  (do plainFunction g (← decorators g)) <|> plainFunction g []

def classHead : P (String × List Expr) := do
  let _ ← word "class"
  let (_, id) ← identifier
  let bases ← optional (callArguments g)
  return (id, (bases.map Prod.fst).getD [])

/-- A class without its colon, or without its block. -/
def badClass : P Unit :=
  (do
    let _ ← classHead g
    missingColon) <|>
  (do
    let line ← line
    let _ ← classHead g
    let _ ← word ":"
    noBlock
    missingBlock "class definition" line)

def plainClass (decorators : List Expr) : P Stmt :=
  explain (badClass g) <|>
  (do
    let (id, bases) ← classHead g
    let _ ← word ":"
    return .classDef ⟨id, bases, decorators⟩ (← g .block))

def classStatement : P Stmt :=
  (do plainClass g (← decorators g)) <|> plainClass g []

/-! ## Statements -/

/-- A compound statement; most are known by their first token. -/
def compoundStatement : P Stmt := do
  let t ← peek
  let starts (texts : List String) (p : P Stmt) : P Stmt :=
    if texts.any (isWord · t) then p else fail
  starts ["def", "@", "async"] (function g) <|>
  starts ["if"] (branch g "if") <|>
  starts ["class", "@"] (classStatement g) <|>
  starts ["with", "async"] (withStatement g) <|>
  starts ["for", "async"] (forLoop g) <|>
  starts ["try"] (tryStatement g) <|>
  starts ["while"] (whileLoop g) <|>
  matchStatement g

/-- A line of simple statements, or a compound one. -/
def statement : P (List Stmt) :=
  (do return [← compoundStatement g]) <|> simpleStatements g

def statements : P (List Stmt) := do
  return (← many1 (statement g)).flatten

def module : P (List Stmt) := do
  let body ← optional (g .statements)
  let _ ← ofKind .finish
  return body.getD []

end CodeAtlas.Script.Grammar
