import CodeAtlas.Script.Syntax
import CodeAtlas.Text.CharacterName

/-!
# Values of literals

What a number stands for, and what the text of a string literal stands for once its escapes are
read. Positions in messages about escapes count a character outside ASCII as the ten characters of
its long escape.
-/

namespace CodeAtlas.Script

/-! ## Numbers -/

/-- The value of a digit in any base up to sixteen. -/
def digitValue (c : Char) : Nat :=
  if 'a' ≤ c && c ≤ 'f' then c.toNat - 'a'.toNat + 10
  else if 'A' ≤ c && c ≤ 'F' then c.toNat - 'A'.toNat + 10
  else c.toNat - '0'.toNat

def valueOf (base : Nat) (digits : List Char) : Nat :=
  digits.foldl (fun n d => n * base + digitValue d) 0

/-- The nearest binary number to a decimal with a fraction or an exponent. -/
def decimalValue (literal : List Char) : Binary :=
  let mantissa := literal.takeWhile fun c => c != 'e' && c != 'E'
  let exponent := literal.drop (mantissa.length + 1)
  let whole := mantissa.takeWhile (· != '.')
  let places := mantissa.drop (whole.length + 1)
  let power : Int :=
    match exponent with
    | '-' :: digits => -(valueOf 10 digits : Int)
    | '+' :: digits => valueOf 10 digits
    | digits => valueOf 10 digits
  Binary.ofDecimal false (valueOf 10 (whole ++ places)) (power - places.length)

/-- The greatest number of decimal digits of an integer. -/
def digitLimit : Nat := 4300

/-- The wording for an integer with too many decimal digits. -/
def tooManyDigits (count : Nat) : String :=
  s!"Exceeds the limit ({digitLimit} digits) for integer string conversion: value has {count} " ++
    "digits; use sys.set_int_max_str_digits() to increase the limit - Consider hexadecimal for " ++
    "huge integer literals to avoid decimal conversion limits."

/-- The value of a number, or why it has none. -/
def numberValue (literal : List Char) : Except String Constant :=
  let digits := literal.filter (· != '_')
  match digits with
  | '0' :: c :: rest =>
    if c == 'x' || c == 'X' then .ok (.integer (valueOf 16 rest))
    else if c == 'o' || c == 'O' then .ok (.integer (valueOf 8 rest))
    else if c == 'b' || c == 'B' then .ok (.integer (valueOf 2 rest))
    else decimal digits
  | _ => decimal digits
where
  /-- The value of a number in base ten. -/
  decimal (digits : List Char) : Except String Constant :=
    if digits.getLast? == some 'j' || digits.getLast? == some 'J' then
      .ok (.imaginary (decimalValue digits.dropLast))
    else if digits.any fun c => c == '.' || c == 'e' || c == 'E' then
      .ok (.real (decimalValue digits))
    else if digits.head? == some '0' then
      -- digits after a leading zero make no integer, unless all are zeros
      .ok (if digits.all (· == '0') then .integer 0 else .real (decimalValue digits))
    else if digitLimit < digits.length then .error (tooManyDigits digits.length)
    else .ok (.integer (valueOf 10 digits))

/-! ## Escapes -/

def longEscape (c : Char) : List Char :=
  let digits := Nat.toDigits 16 c.toNat
  '\\' :: 'U' :: List.replicate (8 - digits.length) '0' ++ digits

/-- A text with long escapes for all characters outside ASCII. A backslash that escapes nothing in
ASCII is itself escaped. -/
def asciiForm : List Char → List Char
  | [] => []
  | '\\' :: c :: rest =>
    if 128 ≤ c.toNat then "\\u005c".toList ++ longEscape c ++ asciiForm rest
    else '\\' :: c :: asciiForm rest
  | ['\\'] => "\\u005c".toList
  | c :: rest => if 128 ≤ c.toNat then longEscape c ++ asciiForm rest else c :: asciiForm rest

/-- An escape that cannot be read: where it starts, where reading it stopped, and why. -/
structure BadEscape where
  start : Nat
  stop : Nat
  reason : String

/-- The wording for an escape that cannot be read. -/
def BadEscape.message (b : BadEscape) : String :=
  s!"(unicode error) 'unicodeescape' codec can't decode bytes in position {b.start}-" ++
    s!"{b.stop - 1}: {b.reason}"

def shortEscape? : Char → Option Nat
  | '\\' => some 92
  | '\'' => some 39
  | '"' => some 34
  | 'b' => some 8
  | 'f' => some 12
  | 't' => some 9
  | 'n' => some 10
  | 'r' => some 13
  | 'v' => some 11
  | 'a' => some 7
  | _ => none

def isOctal (c : Char) : Bool :=
  '0' ≤ c && c ≤ '7'

/-- Whether a character is a hexadecimal digit. -/
def isHex (c : Char) : Bool :=
  ('0' ≤ c && c ≤ '9') || ('a' ≤ c && c ≤ 'f') || ('A' ≤ c && c ≤ 'F')

/-- How many hexadecimal digits follow a letter, and the wording when there are fewer. -/
def hexEscape? : Char → Option (Nat × String)
  | 'x' => some (2, "truncated \\xXX escape")
  | 'u' => some (4, "truncated \\uXXXX escape")
  | 'U' => some (8, "truncated \\UXXXXXXXX escape")
  | _ => none

/-- The code points that an ASCII text stands for once its escapes are read. -/
def unescape (position : Nat) : List Char → Except BadEscape (List Nat)
  | [] => .ok []
  | ['\\'] => .ok [92]
  | '\\' :: '\n' :: rest => unescape (position + 2) rest
  | '\\' :: 'N' :: rest =>
    match rest with
    | '\x7b' :: inner =>
      let name := inner.takeWhile (· != '\x7d')
      let isClosed := name.length < inner.length
      if !isClosed || name.isEmpty then
        .error ⟨position, position + 3 + name.length, "malformed \\N character escape"⟩
      else
        match Text.characterNamed? name with
        | none => .error ⟨position, position + 4 + name.length, "unknown Unicode character name"⟩
        | some point => do
          return point :: (← unescape (position + 4 + name.length) (inner.drop (name.length + 1)))
    | _ => .error ⟨position, position + 2, "malformed \\N character escape"⟩
  | '\\' :: c :: rest =>
    match shortEscape? c, hexEscape? c with
    | some point, _ => do return point :: (← unescape (position + 2) rest)
    | none, some (width, wording) =>
      let digits := (rest.take width).takeWhile isHex
      let point := valueOf 16 digits
      if digits.length < width then .error ⟨position, position + 2 + digits.length, wording⟩
      else if 0x10ffff < point then
        .error ⟨position, position + 2 + width, "illegal Unicode character"⟩
      else do return point :: (← unescape (position + 2 + width) (rest.drop width))
    | none, none =>
      if isOctal c then
        let more := (rest.take 2).takeWhile isOctal
        do return valueOf 8 (c :: more) ::
          (← unescape (position + 2 + more.length) (rest.drop more.length))
      else do return 92 :: c.toNat :: (← unescape (position + 2) rest)
  | c :: rest => do return c.toNat :: (← unescape (position + 1) rest)
termination_by cs => cs.length
decreasing_by all_goals simp only [List.length_cons, List.length_drop]; omega

/-- The bytes that an ASCII text stands for once its escapes are read; an unreadable escape is told
by its position. -/
def unescapeBytes (position : Nat) : List Char → Except Nat (List Nat)
  | [] => .ok []
  | ['\\'] => .ok [92]
  | '\\' :: '\n' :: rest => unescapeBytes (position + 2) rest
  | '\\' :: 'x' :: rest =>
    let digits := (rest.take 2).takeWhile isHex
    if digits.length < 2 then .error position
    else do return valueOf 16 digits :: (← unescapeBytes (position + 4) (rest.drop 2))
  | '\\' :: c :: rest =>
    match shortEscape? c with
    | some byte => do return byte :: (← unescapeBytes (position + 2) rest)
    | none =>
      if isOctal c then
        let more := (rest.take 2).takeWhile isOctal
        do return valueOf 8 (c :: more) % 256 ::
          (← unescapeBytes (position + 2 + more.length) (rest.drop more.length))
      else do return 92 :: c.toNat :: (← unescapeBytes (position + 2) rest)
  | c :: rest => do return c.toNat :: (← unescapeBytes (position + 1) rest)
termination_by cs => cs.length
decreasing_by all_goals simp only [List.length_cons, List.length_drop]; omega

/-- The code points of a literal text, as it stands or with its escapes read. -/
def textPoints (isRaw : Bool) (cs : List Char) : Except String (List Nat) :=
  if isRaw || !cs.contains '\\' then .ok (cs.map Char.toNat)
  else (unescape 0 (asciiForm cs)).mapError BadEscape.message

/-- The bytes of a literal, as it stands or with its escapes read. -/
def byteValues (isRaw : Bool) (cs : List Char) : Except String (List Nat) :=
  if isRaw || !cs.contains '\\' then .ok (cs.map Char.toNat)
  else (unescapeBytes 0 cs).mapError fun position =>
    s!"(value error) invalid \\x escape at position {position}"

/-! ## String literals -/

/-- A string literal taken apart: the letters before it and what stands between its marks. -/
structure StringParts where
  isBytes : Bool
  isRaw : Bool
  isTemplate : Bool
  /-- Whether the literal begins with the letter `u`. -/
  isMarked : Bool
  content : List Char

def stringParts (literal : List Char) : StringParts :=
  let letters := literal.takeWhile fun c => c != '"' && c != '\''
  let quoted := literal.drop letters.length
  let has (c : Char) := letters.any fun l => l.toLower == c
  let mark := quoted.head?.getD '"'
  let isTriple := 6 ≤ quoted.length && quoted.take 3 == [mark, mark, mark]
  let width := if isTriple then 3 else 1
  { isBytes := has 'b'
    isRaw := has 'r'
    isTemplate := has 'f'
    isMarked := letters.head? == some 'u'
    content := (quoted.drop width).take (quoted.length - 2 * width) }

end CodeAtlas.Script
