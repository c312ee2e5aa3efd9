import CodeAtlas.Number.Shortest
import CodeAtlas.Script.Syntax
import CodeAtlas.Text.Blank
import CodeAtlas.Text.Quoted

/-!
# Expressions as text

The text of an expression on one line, with no more parentheses than its structure needs. Every
place in an expression binds what stands there with a strength, and an expression that binds less
strongly itself gets parentheses there.

Some expressions have no text: those that are nested too deeply, those with an integer of too many
digits, and templates with a field that would need a backslash.
-/

namespace CodeAtlas.Script

/-! ## Strengths -/

/-- How strongly an operator or a place binds. -/
abbrev Strength := Nat

namespace Strength

/-- An assignment inside an expression. -/
def walrus : Strength := 1

/-- A tuple without parentheses. -/
def tuple : Strength := 2

def yield : Strength := 3

/-- Conditional expressions and functions without a name; most places bind so. -/
def test : Strength := 4

def disjunction : Strength := 5

def conjunction : Strength := 6

def negation : Strength := 7

def comparison : Strength := 8

/-- The bitwise operator `|`, and all that is unpacked. -/
def bitOr : Strength := 9

/-- The prefix signs. -/
def factor : Strength := 15

def power : Strength := 16

def await : Strength := 17

/-- What can stand anywhere. -/
def atom : Strength := 18

def next (s : Strength) : Strength :=
  min (s + 1) atom

end Strength

def BinaryOp.sign : BinaryOp → String × Strength
  | .bitOr => ("|", 9)
  | .bitXor => ("^", 10)
  | .bitAnd => ("&", 11)
  | .shiftLeft => ("<<", 12)
  | .shiftRight => (">>", 12)
  | .add => ("+", 13)
  | .subtract => ("-", 13)
  | .multiply => ("*", 14)
  | .matrixMultiply => ("@", 14)
  | .divide => ("/", 14)
  | .modulo => ("%", 14)
  | .floorDivide => ("//", 14)
  | .power => ("**", 16)

/-- The sign of an operator and its strength; a word has a blank after it. -/
def UnaryOp.sign : UnaryOp → String × Strength
  | .invert => ("~", .factor)
  | .negation => ("not ", .negation)
  | .plus => ("+", .factor)
  | .minus => ("-", .factor)

/-- The word of a connective and its strength. -/
def BoolOp.sign : BoolOp → String × Strength
  | .conjunction => ("and", .conjunction)
  | .disjunction => ("or", .disjunction)

def CompareOp.sign : CompareOp → String
  | .equal => "=="
  | .notEqual => "!="
  | .less => "<"
  | .lessOrEqual => "<="
  | .greater => ">"
  | .greaterOrEqual => ">="
  | .same => "is"
  | .notSame => "is not"
  | .member => "in"
  | .notMember => "not in"

/-! ## Quotation marks -/

/-- The quotation marks of a literal: one or three of a kind, those on one line first. -/
def quotationMarks : List (List Char) :=
  ["'".toList, "\"".toList, "\"\"\"".toList, "'''".toList]

/-- A character of a literal without regard to its quotation marks. Line ends and tabs stay, if they
may. -/
def sparingEscape (escapesGaps : Bool) (point : Nat) : List Char :=
  if !escapesGaps && (point = '\n'.toNat || point = '\t'.toNat) then [Char.ofNat point]
  else Text.Quoted.escape '\\' point

/-- A text without its quotation marks, and what these could be. As little as possible is escaped;
if none of the given marks allows that, all is escaped that has to be between single marks. -/
def sparingly (marks : List (List Char)) (escapesGaps : Bool) (points : List Nat) :
    List Char × List (List Char) :=
  let escaped := points.flatMap (sparingEscape escapesGaps)
  let possible := marks.filter fun m =>
    (m.length = 3 || !escaped.contains '\n') && !Text.occursIn m escaped
  if possible.isEmpty then
    let mark := Text.Quoted.markFor points
    (points.flatMap (Text.Quoted.escape mark), [(marks.find? (·.contains mark)).getD [mark]])
  else
    let ends (m : List Char) : Bool := !escaped.isEmpty && m.head? == escaped.getLast?
    match possible.filter (!ends ·) ++ possible.filter ends with
    | best :: others =>
      if ends best then
        (escaped.dropLast ++ '\\' :: escaped.getLast?.toList, best :: others)
      else (escaped, best :: others)
    | [] => (escaped, [])

/-- A literal with as few escapes as possible. -/
def sparingLiteral (points : List Nat) : List Char :=
  let (text, marks) := sparingly quotationMarks false points
  let mark := marks.head?.getD []
  mark ++ text ++ mark

/-- The pieces of a template between common quotation marks. A piece says whether it is a literal,
which may have escapes for its line ends. -/
def joinedPieces (marks : List (List Char)) :
    List (List Nat × Bool) → Option (List Char × List (List Char))
  | [] => some ([], marks)
  | (points, isLiteral) :: rest => do
    let (text, possible) := sparingly marks isLiteral points
    if !possible.any marks.contains then none
    let (texts, left) ← joinedPieces possible rest
    return (text ++ texts, left)

/-- A template from the text of its pieces. If no marks suit all of them, everything is escaped as
between single marks, and three of those are written. -/
def templateLiteral (pieces : List (List Nat × Bool)) : List Char :=
  match joinedPieces quotationMarks pieces with
  | some (text, marks) =>
    let mark := marks.head?.getD []
    'f' :: mark ++ text ++ mark
  | none =>
    let mark := "'''".toList
    'f' :: mark ++ pieces.flatMap (fun p => p.1.flatMap (Text.Quoted.escape '\'')) ++ mark

/-! ## Constants -/

/-- The text of a number, or the overflowing decimal that stands for infinity. -/
def realText (layout : Binary.Layout) (x : Binary) : String :=
  (Binary.text layout x).replace "inf" "1e309"

/-- The text of a constant; in a field it must do without backslashes if it can. -/
def Constant.textIn (inField : Bool) : Constant → Option (List Char)
  | .nothing => some "None".toList
  | .truth true => some "True".toList
  | .truth false => some "False".toList
  | .ellipsis => some "...".toList
  | .integer n => if n < Binary.tenTo 4300 then some (Nat.repr n).toList else none
  | .real x => some (realText Binary.plain x).toList
  | .imaginary x => some ((realText Binary.bare x).toList ++ ['j'])
  | .text points isMarked =>
    some <| (if isMarked then ['u'] else []) ++
      if inField then sparingLiteral points else Text.Quoted.quotePoints points
  | .bytes values => some (Text.Quoted.quoteBytes values)

/-! ## Expressions -/

def parenthesized (needed : Bool) (text : List Char) : List Char :=
  if needed then '(' :: text ++ [')'] else text

def commaSeparated (texts : List (List Char)) : List Char :=
  Text.joinWith [',', ' '] texts

/-- Texts of the items of a tuple, where a single one has a comma after it. -/
def tupleItems : List (List Char) → List Char
  | [text] => text ++ [',']
  | texts => commaSeparated texts

/-- A literal piece of a template, with its braces doubled. -/
def doubledBraces (points : List Nat) : List Nat :=
  points.flatMap fun p => if p = '\x7b'.toNat || p = '\x7d'.toNat then [p, p] else [p]

def Expr.tupleItems? : Expr → Option (List Expr)
  | .tuple _ [] => none
  | .tuple _ items => some items
  | _ => none

/-- Whether an expression is a number in whose text a point would be read as part of it. -/
def Expr.isWhole : Expr → Bool
  | .constant _ (.integer _) | .constant _ (.truth _) => true
  | _ => false

/-- The text of parameters, given the text of expressions. -/
def Parameters.textWith (text : Expr → Option (List Char)) (ps : Parameters) :
    Option (List Char) := do
  let named (p : Parameter) : Option (List Char) := do
    let hint ← p.hint.mapM text
    return p.id.toList ++ (hint.map ([':', ' '] ++ ·)).getD []
  let full (p : Parameter) : Option (List Char) := do
    let default ← p.default.mapM text
    return (← named p) ++ (default.map ('=' :: ·)).getD []
  let positional ← ps.positional.mapM full
  let ordinary ← ps.ordinary.mapM full
  let rest ← ps.rest.mapM named
  let others ← ps.named.mapM full
  let namedRest ← ps.namedRest.mapM named
  let star :=
    match rest with
    | some text => ['*' :: text]
    | none => if others.isEmpty then [] else [['*']]
  return commaSeparated <|
    positional ++ (if positional.isEmpty then [] else [['/']]) ++ ordinary ++ star ++ others ++
      (namedRest.map (['*', '*'] ++ ·)).toList

mutual

/-- The text of an expression that stands in a field or outside of any, at a place that binds with a
strength. Expressions nested deeper than the given depth have none. -/
def Expr.textAt : (depth : Nat) → (inField : Bool) → (place : Strength) → Expr →
    Option (List Char)
  | 0, _, _, _ => none
  | depth + 1, inField, place, e =>
    let placed := Expr.textAt depth inField
    let text := placed .test
    let texts (es : List Expr) : Option (List Char) := do return commaSeparated (← es.mapM text)
    let clausesAfter (element : List Char) (clauses : List Clause) : Option (List Char) := do
      return element ++ (← clauses.mapM (Clause.textAt depth inField)).flatten
    match e with
    | .constant _ c => c.textIn inField
    | .name _ id => some id.toList
    | .template _ pieces =>
      if inField then do
        let points ← Piece.pointsOf depth pieces
        return 'f' :: sparingLiteral points
      else do
        let parts ← pieces.mapM fun p => do
          let points ← Piece.pointsOf depth [p]
          let isLiteral := match p with
            | .literal _ => true
            | .field _ _ _ => false
          return (points, isLiteral)
        return templateLiteral parts
    | .connective _ op operands => do
      let (word, strength) := op.sign
      -- each operand binds more strongly than the one before it
      let parts ← operands.zipIdx.mapM fun (operand, i) =>
        placed (min (strength + 1 + i) Strength.atom) operand
      return parenthesized (strength < place) (Text.joinWith (' ' :: word.toList ++ [' ']) parts)
    | .binary _ left op right => do
      let (sign, strength) := op.sign
      let (leftPlace, rightPlace) :=
        if op = .power then (strength.next, strength) else (strength, strength.next)
      let left ← placed leftPlace left
      let right ← placed rightPlace right
      return parenthesized (strength < place) (left ++ ' ' :: sign.toList ++ ' ' :: right)
    | .unary _ op operand => do
      let (sign, strength) := op.sign
      return parenthesized (strength < place) (sign.toList ++ (← placed strength operand))
    | .comparison _ left rest => do
      let left ← placed Strength.comparison.next left
      let rest ← rest.mapM fun (op, right) => do
        return ' ' :: op.sign.toList ++ ' ' :: (← placed Strength.comparison.next right)
      return parenthesized (Strength.comparison < place) (left ++ rest.flatten)
    | .walrus _ target value => do
      let target ← placed .atom target
      let value ← placed .atom value
      return parenthesized (Strength.walrus < place) (target ++ " := ".toList ++ value)
    | .lambda _ parameters body => do
      let parameters ← parameters.textWith text
      let gap := if parameters.isEmpty then [] else [' ']
      return parenthesized (Strength.test < place)
        ("lambda".toList ++ gap ++ parameters ++ ':' :: ' ' :: (← text body))
    | .conditional _ body test otherwise => do
      let body ← placed Strength.test.next body
      let test ← placed Strength.test.next test
      let otherwise ← text otherwise
      return parenthesized (Strength.test < place)
        (body ++ " if ".toList ++ test ++ " else ".toList ++ otherwise)
    | .dictionary _ items => do
      let items ← items.mapM fun (key, value) =>
        match key with
        | some key => do return (← text key) ++ ':' :: ' ' :: (← text value)
        | none => do return '*' :: '*' :: (← placed .bitOr value)
      return '\x7b' :: commaSeparated items ++ ['\x7d']
    | .set _ items => do return '\x7b' :: (← texts items) ++ ['\x7d']
    | .list _ items => do return '[' :: (← texts items) ++ [']']
    | .tuple _ items => do
      let items ← items.mapM text
      return parenthesized (items.isEmpty || Strength.tuple < place) (tupleItems items)
    | .listOver _ element clauses => do
      return '[' :: (← clausesAfter (← text element) clauses) ++ [']']
    | .setOver _ element clauses => do
      return '\x7b' :: (← clausesAfter (← text element) clauses) ++ ['\x7d']
    | .dictionaryOver _ key value clauses => do
      let item := (← text key) ++ ':' :: ' ' :: (← text value)
      return '\x7b' :: (← clausesAfter item clauses) ++ ['\x7d']
    | .generator _ element clauses => do
      return '(' :: (← clausesAfter (← text element) clauses) ++ [')']
    | .await _ value => do
      return parenthesized (Strength.await < place) ("await ".toList ++ (← placed .atom value))
    | .yield _ none => some (parenthesized (Strength.yield < place) "yield".toList)
    | .yield _ (some value) => do
      return parenthesized (Strength.yield < place) ("yield ".toList ++ (← placed .atom value))
    | .yieldFrom _ value => do
      return parenthesized (Strength.yield < place) ("yield from ".toList ++ (← placed .atom value))
    | .call _ callee arguments keywords => do
      let callee ← placed .atom callee
      let arguments ← arguments.mapM text
      let keywords ← keywords.mapM fun k => do
        let value ← text k.value
        return ((k.id.map (·.toList ++ ['='])).getD ['*', '*']) ++ value
      return callee ++ '(' :: commaSeparated (arguments ++ keywords) ++ [')']
    | .attribute _ value id => do
      let gap := if value.isWhole then [' '] else []
      return (← placed .atom value) ++ gap ++ '.' :: id.toList
    | .subscript _ value index => do
      let value ← placed .atom value
      let index ←
        match index.tupleItems? with
        | some items => do pure (tupleItems (← items.mapM text))
        | none => text index
      return value ++ '[' :: index ++ [']']
    | .starred _ value => do return '*' :: (← placed .bitOr value)
    | .slice _ lower upper step => do
      let lower ← lower.mapM text
      let upper ← upper.mapM text
      let step ← step.mapM text
      return lower.getD [] ++ ':' :: upper.getD [] ++ (step.map (':' :: ·)).getD []

def Clause.textAt : (depth : Nat) → (inField : Bool) → Clause → Option (List Char)
  | 0, _, _ => none
  | depth + 1, inField, .mk isAsync target source conditions => do
    let target ← Expr.textAt depth inField .tuple target
    let source ← Expr.textAt depth inField Strength.test.next source
    let conditions ← conditions.mapM (Expr.textAt depth inField Strength.test.next)
    return (if isAsync then " async for ".toList else " for ".toList) ++ target ++
      " in ".toList ++ source ++ conditions.flatMap (" if ".toList ++ ·)

/-- The text of pieces of a template, by code points. -/
def Piece.pointsOf : (depth : Nat) → List Piece → Option (List Nat)
  | 0, _ => none
  | depth + 1, pieces => do
    let parts ← pieces.mapM fun piece =>
      match piece with
      | .literal points => some (doubledBraces points)
      | .field value conversion spec => do
        let text ← Expr.textAt depth true Strength.test.next value
        if text.contains '\\' then none
        -- two opening braces in a row would stand for one
        let gap := if text.head? == some '\x7b' then [' '] else []
        let conversion := (conversion.map fun c => ['!', c]).getD []
        let spec ← spec.mapM (Piece.pointsOf depth)
        return ('\x7b' :: gap ++ text ++ conversion).map Char.toNat ++
          (spec.map (':'.toNat :: ·)).getD [] ++ ['\x7d'.toNat]
    return parts.flatten

end

/-- How deep an expression may be nested to have a text. -/
def textDepth : Nat := 320

def Expr.text? (e : Expr) : Option String :=
  (e.textAt textDepth false .test).map String.ofList

end CodeAtlas.Script
