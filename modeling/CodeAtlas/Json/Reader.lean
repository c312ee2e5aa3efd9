import CodeAtlas.Json.Basic

/-!
# Reading JSON

The whole text has to be one value. Beyond the standard, `NaN`, `Infinity` and `-Infinity` are
numbers; of several fields with one name the last counts, at the place of the first. A complaint
names the place where reading stopped. Integers have at most `digitLimit` digits, and arrays and
objects nest at most `depthLimit` deep.
-/

namespace CodeAtlas.Json

/-- What is wrong with a text that is no JSON value. -/
inductive Flaw where
  | byteOrderMark
  | value
  | propertyName
  | colon
  | comma
  | unterminated
  | control
  | escape
  | unicodeEscape
  | extraData
  deriving DecidableEq, Repr

def Flaw.message : Flaw → String
  | .byteOrderMark => "Unexpected UTF-8 BOM (decode using utf-8-sig)"
  | .value => "Expecting value"
  | .propertyName => "Expecting property name enclosed in double quotes"
  | .colon => "Expecting ':' delimiter"
  | .comma => "Expecting ',' delimiter"
  | .unterminated => "Unterminated string starting at"
  | .control => "Invalid control character at"
  | .escape => "Invalid \\escape"
  | .unicodeEscape => "Invalid \\uXXXX escape"
  | .extraData => "Extra data"

/-- Why a text could not be read. -/
inductive ReadError where
  /-- It is no JSON value: a flaw at a position. -/
  | malformed (flaw : Flaw) (position : Nat)
  /-- An integer with this many digits. -/
  | longInteger (digits : Nat)
  /-- Too many arrays or objects inside one another; the innermost is an array or an object. -/
  | deep (isArray : Bool)
  deriving DecidableEq, Repr

/-- The greatest number of digits of an integer. -/
def digitLimit : Nat := 4300

/-- The greatest depth of nesting. -/
def depthLimit : Nat := 990

/-- A value or part of one, with the position after it and the text from there on. -/
structure Parsed (α : Type) where
  value : α
  position : Nat
  rest : List Char

/-- The four characters between tokens that mean nothing. -/
def isGap (c : Char) : Bool :=
  c == ' ' || c == '\t' || c == '\n' || c == '\r'

def skipGaps (position : Nat) : List Char → Nat × List Char
  | [] => (position, [])
  | c :: rest => if isGap c then skipGaps (position + 1) rest else (position, c :: rest)

def hexValue? (c : Char) : Option Nat :=
  if '0' ≤ c && c ≤ '9' then some (c.toNat - '0'.toNat)
  else if 'a' ≤ c && c ≤ 'f' then some (c.toNat - 'a'.toNat + 10)
  else if 'A' ≤ c && c ≤ 'F' then some (c.toNat - 'A'.toNat + 10)
  else none

/-- The number written by four hexadecimal digits at the front of a text. -/
def fourHex? : List Char → Option (Nat × List Char)
  | a :: b :: c :: d :: rest => do
    let a ← hexValue? a
    let b ← hexValue? b
    let c ← hexValue? c
    let d ← hexValue? d
    pure (((a * 16 + b) * 16 + c) * 16 + d, rest)
  | _ => none

/-- What a letter after a backslash stands for. -/
def escapeValue? : Char → Option Char
  | '"' => some '"'
  | '\\' => some '\\'
  | '/' => some '/'
  | 'b' => some '\x08'
  | 'f' => some '\x0c'
  | 'n' => some '\n'
  | 'r' => some '\r'
  | 't' => some '\t'
  | _ => none

/-- The character with a code unit; half a surrogate pair has none and becomes the replacement
character. -/
def charOfUnit (n : Nat) : Char :=
  if 0xd800 ≤ n && n < 0xe000 then '�' else Char.ofNat n

/-- Reads the inside of a string up to its closing quote. `opening` is the position of the opening
quote, `sofar` holds the characters read, last first, and every round takes a character at least,
so `steps` may be the length of the text. -/
def readString (opening : Nat) : (steps : Nat) → (sofar : List Char) → (position : Nat) →
    List Char → Except ReadError (Parsed String)
  | 0, _, _, _ => .error (.malformed .unterminated opening)
  | _, _, _, [] => .error (.malformed .unterminated opening)
  | steps + 1, sofar, position, c :: rest =>
    if c = '"' then .ok ⟨String.ofList sofar.reverse, position + 1, rest⟩
    else if c = '\\' then
      match rest with
      | [] => .error (.malformed .unterminated opening)
      | 'u' :: rest' =>
        -- four digits, and at least one character after them
        if rest'.length ≤ 4 then .error (.malformed .unicodeEscape (position + 1))
        else
          match fourHex? rest' with
          | none => .error (.malformed .unicodeEscape (position + 1))
          | some (high, after) =>
            match (if 0xd800 ≤ high && high < 0xdc00 && 6 < after.length then after else []) with
            | '\\' :: 'u' :: rest'' =>
              match fourHex? rest'' with
              | none => .error (.malformed .unicodeEscape (position + 7))
              | some (low, after') =>
                if 0xdc00 ≤ low && low < 0xe000 then
                  let point := 0x10000 + (high - 0xd800) * 0x400 + (low - 0xdc00)
                  readString opening steps (Char.ofNat point :: sofar) (position + 12) after'
                else readString opening steps (charOfUnit high :: sofar) (position + 6) after
            | _ => readString opening steps (charOfUnit high :: sofar) (position + 6) after
      | e :: rest' =>
        match escapeValue? e with
        | none => .error (.malformed .escape position)
        | some v => readString opening steps (v :: sofar) (position + 2) rest'
    else if c.toNat < 0x20 then .error (.malformed .control position)
    else readString opening steps (c :: sofar) (position + 1) rest

def isDigit (c : Char) : Bool :=
  '0' ≤ c && c ≤ '9'

/-- The number written by decimal digits. -/
def digitsValue (digits : List Char) : Nat :=
  digits.foldl (fun n c => n * 10 + (c.toNat - '0'.toNat)) 0

/-- The digits after a point, if a point and a digit follow. -/
def fractionPart : List Char → List Char × List Char
  | '.' :: d :: rest =>
    if isDigit d then (d :: rest.takeWhile isDigit, rest.dropWhile isDigit)
    else ([], '.' :: d :: rest)
  | source => ([], source)

/-- An exponent part, if a complete one follows: its text length, its value and the rest. -/
def exponentPart (text : List Char) : Option (Nat × Int × List Char) :=
  match text with
  | e :: rest =>
    if e = 'e' || e = 'E' then
      let (sign, signLength, digits) := match rest with
        | '-' :: r => ((-1 : Int), 1, r)
        | '+' :: r => (1, 1, r)
        | r => (1, 0, r)
      let ds := digits.takeWhile isDigit
      if ds.isEmpty then none
      else some (1 + signLength + ds.length, sign * digitsValue ds, digits.dropWhile isDigit)
    else none
  | [] => none

/-- Reads the digits of a number after its sign. -/
def readDigits (negative : Bool) (start position : Nat) (text : List Char) :
    Except ReadError (Parsed Json) :=
  let whole := match text with
    | '0' :: _ => ['0']
    | _ => text.takeWhile isDigit
  if whole.isEmpty then .error (.malformed .value start)
  else
    let rest := text.drop whole.length
    let position := position + whole.length
    let (fraction, rest') := fractionPart rest
    let position := if fraction.isEmpty then position else position + 1 + fraction.length
    match fraction, exponentPart rest' with
    | [], none =>
      if digitLimit < whole.length then .error (.longInteger whole.length)
      else
        let n : Int := digitsValue whole
        .ok ⟨.int (if negative then -n else n), position, rest'⟩
    | _, none =>
      .ok ⟨.number (Binary.ofDecimal negative (digitsValue (whole ++ fraction)) (-fraction.length)),
        position, rest'⟩
    | _, some (length, exponent, rest'') =>
      .ok ⟨.number (Binary.ofDecimal negative (digitsValue (whole ++ fraction))
        (exponent - fraction.length)), position + length, rest''⟩

/-- Removes a text from the front of another. -/
def dropText? : List Char → List Char → Option (List Char)
  | [], rest => some rest
  | _ :: _, [] => none
  | c :: cs, d :: rest => if c = d then dropText? cs rest else none

def wordValues : List (String × Json) :=
  [("null", .null), ("true", .bool true), ("false", .bool false), ("NaN", .number .nan),
    ("Infinity", .number (.infinite false)), ("-Infinity", .number (.infinite true))]

/-- Reads a value that is neither a string, an array nor an object. -/
def readScalar (position : Nat) (text : List Char) : Except ReadError (Parsed Json) :=
  let word := wordValues.findSome? fun (w, v) =>
    (dropText? w.toList text).map fun rest => Parsed.mk v (position + w.length) rest
  match word with
  | some p => .ok p
  | none =>
    match text with
    | '-' :: rest => readDigits true position (position + 1) rest
    | _ => readDigits false position position text

mutual

/-- Reads a value. Every call takes a character or follows one that did, so `steps` may be twice the
length of the text; `depth` is how many more arrays and objects may be entered. -/
def readValue : (steps depth position : Nat) → List Char → Except ReadError (Parsed Json)
  | 0, _, position, _ => .error (.malformed .value position)
  | _, _, position, [] => .error (.malformed .value position)
  | steps + 1, depth, position, c :: rest =>
    if c = '"' then do
      let p ← readString position (rest.length + 1) [] (position + 1) rest
      .ok ⟨.text p.value, p.position, p.rest⟩
    else if c = '[' then
      match depth with
      | 0 => .error (.deep true)
      | depth + 1 =>
        match skipGaps (position + 1) rest with
        | (position, ']' :: rest') => .ok ⟨.array [], position + 1, rest'⟩
        | (position, rest') => readItems steps depth [] position rest'
    else if c = '\x7b' then
      match depth with
      | 0 => .error (.deep false)
      | depth + 1 =>
        match skipGaps (position + 1) rest with
        | (position, '\x7d' :: rest') => .ok ⟨.object [], position + 1, rest'⟩
        | (position, rest') => readFields steps depth [] position rest'
    else readScalar position (c :: rest)

/-- Reads the items of an array from one item on; `sofar` holds those before it, last first. -/
def readItems : (steps depth : Nat) → (sofar : List Json) → (position : Nat) → List Char →
    Except ReadError (Parsed Json)
  | 0, _, _, position, _ => .error (.malformed .value position)
  | steps + 1, depth, sofar, position, source => do
    let p ← readValue steps depth position source
    match skipGaps p.position p.rest with
    | (position, ']' :: rest) => .ok ⟨.array (p.value :: sofar).reverse, position + 1, rest⟩
    | (position, ',' :: rest) =>
      let (position, rest) := skipGaps (position + 1) rest
      readItems steps depth (p.value :: sofar) position rest
    | (position, _) => .error (.malformed .comma position)

def readFields : (steps depth : Nat) → (sofar : List (String × Json)) → (position : Nat) →
    List Char → Except ReadError (Parsed Json)
  | 0, _, _, position, _ => .error (.malformed .propertyName position)
  | steps + 1, depth, sofar, position, source =>
    match source with
    | '"' :: rest => do
      let key ← readString position (rest.length + 1) [] (position + 1) rest
      match skipGaps key.position key.rest with
      | (position, ':' :: rest) =>
        let (position, rest) := skipGaps (position + 1) rest
        let p ← readValue steps depth position rest
        let fields := setField sofar key.value p.value
        match skipGaps p.position p.rest with
        | (position, '\x7d' :: rest) => .ok ⟨.object fields, position + 1, rest⟩
        | (position, ',' :: rest) =>
          let (position, rest) := skipGaps (position + 1) rest
          readFields steps depth fields position rest
        | (position, _) => .error (.malformed .comma position)
      | (position, _) => .error (.malformed .colon position)
    | _ => .error (.malformed .propertyName position)

end

def read (text : List Char) : Except ReadError Json :=
  match text with
  | '\ufeff' :: _ => .error (.malformed .byteOrderMark 0)
  | _ => do
    let (position, rest) := skipGaps 0 text
    let p ← readValue (2 * text.length + 2) depthLimit position rest
    match skipGaps p.position p.rest with
    | (_, []) => .ok p.value
    | (position, _) => .error (.malformed .extraData position)

/-- The line and column of a position, both counted from one. -/
def lineAndColumn (text : List Char) (position : Nat) : Nat × Nat :=
  let passed := text.take position
  let inLine := passed.reverse.takeWhile (· != '\n')
  (passed.count '\n' + 1, inLine.length + 1)

def ReadError.message (text : List Char) : ReadError → String
  | .malformed flaw position =>
    let (line, column) := lineAndColumn text position
    flaw.message ++ s!": line {line} column {column} (char {position})"
  | .longInteger digits =>
    s!"Exceeds the limit ({digitLimit} digits) for integer string conversion: " ++
      s!"value has {digits} digits; use sys.set_int_max_str_digits() to increase the limit"
  | .deep isArray =>
    "maximum recursion depth exceeded while decoding a JSON " ++
      (if isArray then "array" else "object") ++ " from a unicode string"

end CodeAtlas.Json
