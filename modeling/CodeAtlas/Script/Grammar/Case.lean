import CodeAtlas.Script.Grammar.Expression

/-!
# The grammar of case patterns

A pattern binds names and compares values; no outline shows any of it, so only its form is read.
-/

namespace CodeAtlas.Script.Grammar

open P

variable (g : Grammar)

/-- Where a name would go on as something else. -/
def nameEnds : P Unit :=
  notAhead (wordOf [".", "(", "="])

/-- A name that a pattern binds. -/
def captured : P Unit := do
  notAhead (softWord "_")
  let _ ← ofKind .name
  nameEnds

def dottedNames : P (List (Nat × String)) :=
  separated (word ".") identifier

/-- Names between points, at least two. -/
def valueName : P Unit := do
  if (← dottedNames).length < 2 then fail

def signedNumber : P Unit := do
  let _ ← optional (word "-")
  let _ ← numberAtom

def isImaginary : Expr → Bool
  | .constant _ (.imaginary _) => true
  | _ => false

def complexNumber : P Unit := do
  let _ ← optional (word "-")
  let real ← numberAtom
  if isImaginary real then raiseAt real.line "real number required in complex literal"
  let _ ← wordOf ["+", "-"]
  let imaginary ← numberAtom
  if !isImaginary imaginary then
    raiseAt imaginary.line "imaginary number required in complex literal"

/-- A constant that a value is compared with. -/
def literalPattern : P Unit :=
  (do signedNumber; notAhead (wordOf ["+", "-"])) <|>
  complexNumber <|>
  (do let _ ← g .strings) <|>
  (do let _ ← wordOf ["None", "True", "False"])

def sequenceItem : P Unit :=
  g .starPattern <|> g .pattern

def sequenceItems : P Unit := do
  let _ ← separated (word ",") (sequenceItem g)
  let _ ← optional (word ",")

/-- A sequence without brackets: a comma has to follow its first pattern. -/
def openSequence : P Unit := do
  sequenceItem g
  let _ ← word ","
  let _ ← optional (sequenceItems g)

def restPattern : P Unit := do
  let _ ← word "**"
  captured

def keyPattern : P Unit := do
  literalPattern g <|> valueName
  let _ ← word ":"
  g .pattern

def mappingPattern : P Unit :=
  (do let _ ← word "\x7b"; let _ ← word "\x7d") <|>
  (do
    let _ ← word "\x7b"
    restPattern
    let _ ← optional (word ",")
    let _ ← word "\x7d") <|>
  (do
    let _ ← word "\x7b"
    let _ ← separated (word ",") (keyPattern g)
    let _ ← word ","
    restPattern
    let _ ← optional (word ",")
    let _ ← word "\x7d") <|>
  (do
    let _ ← word "\x7b"
    let _ ← separated (word ",") (keyPattern g)
    let _ ← optional (word ",")
    let _ ← word "\x7d")

def positionalPatterns : P Unit := do
  let _ ← separated (word ",") (g .pattern)

def keywordPatterns : P Unit := do
  let _ ← separated (word ",") (do
    let _ ← ofKind .name
    let _ ← word "="
    g .pattern)

def classPattern : P Unit :=
  (do
    let _ ← dottedNames
    let _ ← word "("
    let _ ← word ")") <|>
  (do
    let _ ← dottedNames
    let _ ← word "("
    positionalPatterns g
    let _ ← optional (word ",")
    let _ ← word ")") <|>
  (do
    let _ ← dottedNames
    let _ ← word "("
    keywordPatterns g
    let _ ← optional (word ",")
    let _ ← word ")") <|>
  (do
    let _ ← dottedNames
    let _ ← word "("
    positionalPatterns g
    let _ ← word ","
    keywordPatterns g
    let _ ← optional (word ",")
    let _ ← word ")") <|>
  explain (do
    let _ ← dottedNames
    let _ ← word "("
    let _ ← optional (do positionalPatterns g; word ",")
    keywordPatterns g
    let _ ← word ","
    let line ← line
    positionalPatterns g
    raiseAt line "positional patterns follow keyword patterns")

/-- A pattern that needs no brackets beside others. -/
def closedPattern : P Unit :=
  literalPattern g <|>
  captured <|>
  (do let _ ← softWord "_") <|>
  (do valueName; nameEnds) <|>
  (do let _ ← word "("; g .pattern; let _ ← word ")") <|>
  (do
    let _ ← word "["
    let _ ← optional (sequenceItems g)
    let _ ← word "]") <|>
  (do
    let _ ← word "("
    let _ ← optional (openSequence g)
    let _ ← word ")") <|>
  mappingPattern g <|>
  classPattern g

/-- The rest of a sequence. -/
def starPattern : P Unit := do
  let _ ← word "*"
  captured <|> (do let _ ← softWord "_")

def orPattern : P Unit := do
  let _ ← separated (word "|") (g .closedPattern)

/-- A pattern, perhaps with a name for all of it. -/
def pattern : P Unit :=
  (do
    orPattern g
    let _ ← word "as"
    captured) <|>
  explain
    ((do
      orPattern g
      let _ ← word "as"
      let t ← softWord "_"
      raiseAt t.line "cannot use '_' as a target") <|>
    (do
      orPattern g
      let _ ← word "as"
      notAhead (ofKind .name)
      let e ← g .expression
      raiseAt e.line "invalid pattern target")) <|>
  orPattern g

def patterns : P Unit :=
  openSequence g <|> g .pattern

end CodeAtlas.Script.Grammar
