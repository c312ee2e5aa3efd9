import CodeAtlas.Number.Binary

/-!
# Shortest decimals

A finite binary number is written with the fewest decimal digits that read back as the same number;
among those the nearest to the number is taken. For 1, 2, … 17 digits the two neighbours of the
number on that decimal grid are tried against the interval of reals that round to it.
-/

namespace CodeAtlas.Binary

/-- The reals that round to a positive number, in units of a quarter of its last place: lower end,
upper end, and whether the ends belong. -/
structure Neighbourhood where
  low : Nat
  high : Nat
  closed : Bool

/-- The interval around `m * 2 ^ e`, with numbers in quarters of `2 ^ e`. Below a power of two the
numbers lie twice as close. -/
def neighbourhood (m : Nat) (e : Int) : Neighbourhood :=
  ⟨if m = twoTo 52 && leastExponent < e then 4 * m - 1 else 4 * m - 2, 4 * m + 2, m % 2 == 0⟩

/-- Decimal digits and the exponent of the first: `d.ddd * 10 ^ exponent`. -/
structure Digits where
  digits : List Nat
  exponent : Int

def digitsOf (n : Nat) : List Nat :=
  (Nat.toDigits 10 n).map fun c => c.toNat - '0'.toNat

/-- Whether the decimal `k / 10 ^ places` lies in the neighbourhood, where the number is
`quarters * unit / parts`. -/
def inside (h : Neighbourhood) (unit parts k tens : Nat) (places : Int) : Bool :=
  -- compare k * 10^(-places) with h.low * unit / parts and h.high * unit / parts
  let (kn, kd) := if 0 ≤ places then (k, tens) else (k * tens, 1)
  let left := kn * parts
  let low := h.low * unit * kd
  let high := h.high * unit * kd
  if h.closed then low ≤ left && left ≤ high else low < left && left < high

/-- The power of ten just not above the fraction `n / d`, searched downwards from `guess`. -/
def tenPower (n d : Nat) : (steps : Nat) → (guess : Int) → Int
  | 0, guess => guess
  | steps + 1, guess =>
    let fits := if 0 ≤ guess then decide (d * tenTo guess.toNat ≤ n)
      else decide (d ≤ n * tenTo (-guess).toNat)
    if fits then guess else tenPower n d steps (guess - 1)

/-- Tries grids of `count`, `count + 1`, … digits for the number `4 * m * unit / parts`, whose first
digit stands at `10 ^ top`. -/
def searchDigits (h : Neighbourhood) (m unit parts : Nat) (top : Int) :
    (steps count : Nat) → Digits
  | 0, count => ⟨digitsOf (m * unit / parts), top + count⟩
  | steps + 1, count =>
    let places : Int := count - 1 - top
    let tens := tenTo places.natAbs
    -- the number on the grid: floor of 4 * m * unit / parts * 10^places
    let (n, d) := if 0 ≤ places then (4 * m * unit * tens, parts) else (4 * m * unit, parts * tens)
    let below := n / d
    let above := below + 1
    let belowIn := inside h unit parts below tens places
    let aboveIn := inside h unit parts above tens places
    let twice := 2 * (n % d)
    let found (k : Nat) : Digits :=
      let ds := digitsOf k
      ⟨ds, top + ds.length - count⟩
    if belowIn && aboveIn then
      if twice < d || (twice = d && below % 2 = 0) then found below else found above
    else if belowIn then found below
    else if aboveIn then found above
    else searchDigits h m unit parts top steps (count + 1)

def dropTrailingZeros (ds : List Nat) : List Nat :=
  (ds.reverse.dropWhile (· == 0)).reverse

/-- The shortest decimal of the positive number `m * 2 ^ e`. -/
def shortest (m : Nat) (e : Int) : Digits :=
  let (unit, parts) := if 0 ≤ e then (twoTo e.toNat, 4) else (1, 4 * twoTo (-e).toNat)
  let n := 4 * m * unit
  let guess : Int := (((Nat.log2 n : Int) - Nat.log2 parts + 1) * 30103).fdiv 100000 + 1
  let top := tenPower n parts 8 guess
  let found := searchDigits (neighbourhood m e) m unit parts top 18 1
  ⟨dropTrailingZeros found.digits, found.exponent⟩

/-- How a decimal is laid out. -/
structure Layout where
  /-- The least exponent written without an exponent part. -/
  positionalFrom : Int
  /-- The exponent at which the exponent part begins again. -/
  positionalBelow : Int
  /-- What a whole number ends with. -/
  wholeEnding : String
  /-- The least number of digits of an exponent. -/
  exponentWidth : Nat

def digitText (ds : List Nat) : String :=
  String.ofList (ds.map Nat.digitChar)

/-- The text of an exponent, signed and padded with zeros. -/
def exponentText (width : Nat) (e : Int) : String :=
  let digits := toString e.natAbs
  (if e < 0 then "e-" else "e+") ++ "".pushn '0' (width - digits.length) ++ digits

/-- Lays decimal digits out as text. -/
def Layout.write (l : Layout) (d : Digits) : String :=
  let count := d.digits.length
  if l.positionalFrom ≤ d.exponent && d.exponent < l.positionalBelow then
    if d.exponent < 0 then "0." ++ "".pushn '0' (d.exponent.natAbs - 1) ++ digitText d.digits
    else
      let whole := d.exponent.toNat + 1
      if count ≤ whole then
        digitText d.digits ++ "".pushn '0' (whole - count) ++ l.wholeEnding
      else digitText (d.digits.take whole) ++ "." ++ digitText (d.digits.drop whole)
  else
    digitText (d.digits.take 1) ++ (if 1 < count then "." ++ digitText (d.digits.drop 1) else "") ++
      exponentText l.exponentWidth d.exponent

/-- Numbers from one ten-thousandth to below ten to the sixteenth are written without an exponent,
whole ones with a point and a zero; exponents have two digits at least. -/
def plain : Layout := ⟨-4, 16, ".0", 2⟩

/-- The same, but whole numbers end with their last digit. -/
def bare : Layout := { plain with wholeEnding := "" }

def text (l : Layout) : Binary → String
  | .nan => "nan"
  | .infinite negative => if negative then "-inf" else "inf"
  | .finite negative m e =>
    (if negative then "-" else "") ++
      (if m = 0 then "0" ++ l.wholeEnding else l.write (shortest m e))

end CodeAtlas.Binary
