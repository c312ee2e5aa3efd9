/-!
# Binary floating point

Numbers of the 64-bit binary format as exact data: a finite number is an integer mantissa times a
power of two. Reading a decimal rounds to the nearest such number, and a tie goes to the even
mantissa. Everything is integer arithmetic, so statements about it need no floating point.
-/

namespace CodeAtlas

/-- A number of the 64-bit binary format. A finite one is `mantissa * 2 ^ exponent`, with a mantissa
below `2 ^ 53` and an exponent of at least `-1074`; the mantissa is at least `2 ^ 52` unless the
exponent is the least one. -/
inductive Binary where
  | finite (negative : Bool) (mantissa : Nat) (exponent : Int)
  | infinite (negative : Bool)
  | nan
  deriving DecidableEq, Repr

namespace Binary

/-- The quotient of two natural numbers, rounded to the nearest, a tie to the even one. -/
def roundDiv (n d : Nat) : Nat :=
  let q := n / d
  let r := n % d
  if 2 * r < d then q
  else if d < 2 * r then q + 1
  else if q % 2 = 0 then q else q + 1

def leastExponent : Int := -1074

/-- The exponent above which no finite number exists. -/
def greatestExponent : Int := 971

def twoTo (n : Nat) : Nat :=
  Nat.pow 2 n

def tenTo (n : Nat) : Nat :=
  Nat.pow 10 n

/-- `n / d`, scaled by a power of two: the pair whose quotient is `n / d / 2 ^ e`. -/
def scale (n d : Nat) (e : Int) : Nat × Nat :=
  if 0 ≤ e then (n, d * twoTo e.toNat) else (n * twoTo (-e).toNat, d)

/-- The exponent of the nearest number to the positive fraction `n / d`: the one that makes the
mantissa fill 53 bits, unless that is below the least exponent. -/
def exponentOf (n d : Nat) : Int :=
  let guess : Int := (Nat.log2 n : Int) - (Nat.log2 d : Int) - 52
  let (n', d') := scale n d guess
  -- the two logarithms may be off by one together
  max leastExponent (if n' / d' < twoTo 52 then guess - 1 else guess)

def ofFraction (negative : Bool) (n d : Nat) : Binary :=
  if n = 0 then .finite negative 0 leastExponent
  else
    let e := exponentOf n d
    let (n', d') := scale n d e
    let m := roundDiv n' d'
    let (m, e) := if m = twoTo 53 then (twoTo 52, e + 1) else (m, e)
    if greatestExponent < e then .infinite negative else .finite negative m e

def digitCount (n : Nat) : Nat :=
  (Nat.toDigits 10 n).length

/-- The nearest number to `digits * 10 ^ exponent`. Numbers far outside the format are settled by
their magnitude alone. -/
def ofDecimal (negative : Bool) (digits : Nat) (exponent : Int) : Binary :=
  let magnitude := exponent + digitCount digits
  if digits = 0 then .finite negative 0 leastExponent
  else if 310 < magnitude then .infinite negative
  else if magnitude < -330 then .finite negative 0 leastExponent
  else if 0 ≤ exponent then ofFraction negative (digits * tenTo exponent.toNat) 1
  else ofFraction negative digits (tenTo (-exponent).toNat)

def isInteger (x : Binary) (n : Int) : Bool :=
  match x with
  | .finite negative m e =>
    let (a, b) := scale n.natAbs 1 e
    a == m * b && (n == 0 || (n < 0) == negative)
  | _ => false

/-- Whether two numbers are equal by value: the two zeros are, and what is no number is not. -/
def sameValue : Binary → Binary → Bool
  | .finite s m e, .finite s' m' e' => (m == 0 && m' == 0) || (s == s' && m == m' && e == e')
  | .infinite s, .infinite s' => s == s'
  | _, _ => false

/-- A finite number without its fraction. -/
def truncate? : Binary → Option Int
  | .finite negative m e =>
    let n : Int := if 0 ≤ e then m * twoTo e.toNat else (m / twoTo (-e).toNat : Nat)
    some (if negative then -n else n)
  | _ => none

end Binary

end CodeAtlas
