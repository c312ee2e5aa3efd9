/-!
# Packed texts

Long tables are kept packed. A packed text is a fraction, written with digits in base 85, and is
read bit by bit. A model gives the chance that the next bit is a one. The range in which the
fraction lies is divided by this chance, and the part in which it lies says what the bit is. The
model learns from each bit: it has an estimate for each context, which is a view of what stands
before the next character and the bits of this character that are known; and it has weights by which
it mixes the estimates of the contexts. All numbers are whole, so that a text is read in one way.
-/

namespace CodeAtlas.Text.Packed

/-! ## Chances and odds -/

/-- The chances, in parts of 4096, at odds that are 128 apart. -/
def curve : Array Nat :=
  #[1, 2, 3, 6, 10, 16, 27, 45, 73, 120, 194, 310, 488, 747, 1101, 1546, 2047, 2549, 2994, 3348,
    3607, 3785, 3901, 3975, 4022, 4050, 4068, 4079, 4085, 4089, 4092, 4093, 4094]

/-- The chance at some odds from -2047 to 2047, between the values of the curve. -/
def chanceAt (odds : Int) : Nat :=
  let x := (odds + 2048).toNat
  (curve.getD (x / 128) 0 * (128 - x % 128) + curve.getD (x / 128 + 1) 0 * (x % 128) + 64) / 128

/-- For each chance the least odds that have it or a greater one. -/
def oddsTable : Array Int :=
  let reached := (List.range 4095).foldl
    (fun table (k : Nat) =>
      let odds : Int := k - 2047
      table ++ Array.replicate (chanceAt odds + 1 - table.size) odds)
    #[]
  reached ++ Array.replicate (4096 - reached.size) 2047

/-! ## The model -/

/-- What counts for the next character: some views of what stands before, other views, of which it
counts what came after them the last two times, and one of 384 rows of weights. -/
structure Outlook where
  views : List (List Char)
  recalled : List (List Char)
  row : Nat

/-- The characters of a text, at most 64, what is known of it while it is read, and the outlook,
which depends also on the characters before, the latest first. -/
structure Format (σ : Type) where
  alphabet : List Char
  start : σ
  step : σ → Char → σ
  outlook : σ → List Char → Outlook

/-- What has been learnt: the estimates, each a chance in parts of 65536 times eight and the number
of bits that it rests on, and the weights, in 512 rows with places for sixteen views. -/
structure Model where
  estimates : Array Nat
  weights : Array Int

def Model.start (estimates : Nat) : Model :=
  ⟨Array.replicate estimates 0x40000, Array.replicate (512 * 16) 24000⟩

/-- A number for a view, given its place among the views. -/
def contextOf (i : Nat) (view : List Char) : UInt32 :=
  let start := (i + 1).toUInt32
  (view.foldl (fun h c => (h + c.toNat.toUInt32) * 0x2c1b3c6d) start * 0x9e3779b1) >>> 8

/-- Where the estimate stands for the known bits, with a one before them, and a context. -/
def place (known context : UInt32) : Nat :=
  (known ^^^ context).toNat

/-- The odds that an estimate stands for; without experience they are even. -/
def oddsOf (estimate : Nat) : Int :=
  if estimate % 8 = 0 then 0 else oddsTable.getD (estimate / 128) 0

/-- An estimate after one more bit. It moves the less the more bits it rests on, of which at most
seven count, and one after a bit that was the less likely. -/
def learn (bit : Bool) (estimate : Nat) : Nat :=
  let chance := estimate / 8
  let count := estimate % 8
  let chance' :=
    if bit then chance + (65535 - chance) * 10 / (10 * count + 11)
    else chance - chance * 10 / (10 * count + 11)
  chance' * 8 + min 7 ((if bit = (32768 ≤ chance) then count else min 1 count) + 1)

/-- The sum of odds times their weights, which begin at an index. -/
def weighed (weights : Array Int) : Nat → List Int → Int
  | _, [] => 0
  | i, odds :: more => weights.getD i 0 * odds + weighed weights (i + 1) more

/-- The odds that a row of weights makes of others. -/
def mixed (weights : Array Int) (row : Nat) (odds : List Int) : Int :=
  max (-2047) (min 2047 (weighed weights (16 * row) odds / 65536))

def reweighed (error : Int) : Nat → List Int → Array Int → Array Int
  | _, [], weights => weights
  | i, odds :: more, weights =>
    reweighed error (i + 1) more <|
      if odds = 0 then weights else weights.modify i (· + (odds * error + 32768) / 65536)

/-! ## Reading -/

/-- How far a text is read: the digits that are left, where in the range the fraction lies, and how
wide the range is. -/
structure Reader where
  digits : List Nat
  code : Nat
  range : Nat

/-- Takes digits while the range is narrow, at most as many as given. -/
def Reader.refill : Nat → Reader → Reader
  | 0, r => r
  | count + 1, r =>
    if r.range < 85 ^ 4 then
      refill count ⟨r.digits.tail, r.code * 85 + r.digits.headD 0, r.range * 85⟩
    else r

/-- Reads a bit, given the chance of a one. -/
def Reader.next (chance : Nat) (r : Reader) : Bool × Reader :=
  let part := r.range / 4096 * chance
  if r.code < part then (true, refill 5 { r with range := part })
  else (false, refill 5 { r with code := r.code - part, range := r.range - part })

/-- Reads some more bits of a character after the known ones. The estimates are mixed by the weights
of a row for the known bits and of another one, and what these make of them is mixed once more. -/
def readBits (row : Nat) (contexts : List UInt32) :
    (count : Nat) → UInt32 → Model → Reader → UInt32 × Model × Reader
  | 0, known, m, r => (known, m, r)
  | count + 1, known, ⟨estimates, weights⟩, r =>
    let odds := contexts.map fun context => oddsOf (estimates.getD (place known context) 0)
    let opinion := mixed weights known.toNat odds
    let opinion' := mixed weights (64 + row) odds
    let last := 448 + known.toNat
    let final := mixed weights last [opinion, opinion']
    let (bit, r) := r.next (chanceAt final)
    -- a row learns where it was not nearly sure of the bit
    let relearn (opinion rate : Int) (row : Nat) (odds : List Int) (weights : Array Int) :=
      let error : Int := (if bit then 4096 else 0) - chanceAt opinion
      if error.natAbs < 64 then weights else reweighed (error * rate) (16 * row) odds weights
    let m : Model :=
      ⟨contexts.foldl (fun estimates context => estimates.modify (place known context) (learn bit))
          estimates,
        relearn opinion 40 known.toNat odds <| relearn opinion' 40 (64 + row) odds <|
          relearn final 6 last [opinion, opinion'] weights⟩
    readBits row contexts count (known * 2 + if bit then 1 else 0) m r

/-- Reads some characters after others, which stand in reverse order. For the views that are
recalled there are the two characters after each, as one number. -/
def readChars {σ : Type} (format : Format σ) :
    (count : Nat) → σ → (read : List Char) → Array Nat → Model → Reader → List Char
  | 0, _, read, _, _, _ => read
  | count + 1, s, read, followers, m, r =>
    let outlook := format.outlook s read
    let places := outlook.recalled.mapIdx fun i view => (contextOf i view).toNat / 4
    let recalled := places.map fun i =>
      let pair := followers.getD i 0
      [Char.ofNat (pair % 128), Char.ofNat (pair / 128)]
    let contexts := (outlook.views ++ recalled).mapIdx contextOf
    let (known, m, r) := readBits outlook.row contexts 6 1 m r
    let c := format.alphabet.getD (known.toNat % 64) '0'
    let followers := places.foldl (·.modify · (· % 128 * 128 + c.toNat)) followers
    readChars format count (format.step s c) (c :: read) followers m r

def digits : List Char :=
  "0123456789ABCDEFGHIJKLMNOPQRSTUVWXYZabcdefghijklmnopqrstuvwxyz!$%&()*+,./:;<=>?[]^_|~".toList

/-- The text of a given length that is packed in digits. White space divides the digits into lines
and means nothing. Null characters stand before the text. -/
def unpack {σ : Type} (format : Format σ) (length : Nat) (packed : String) : List Char :=
  let values := packed.toList.filterMap (digits.idxOf? ·)
  let start := (values.take 5).foldl (fun code value => code * 85 + value) 0
  let nulls := List.replicate 9 (Char.ofNat 0)
  let m := Model.start (max length 0x1000000)
  let read := readChars format length format.start nulls (Array.replicate (m.estimates.size / 4) 0) m
    ⟨values.drop 5, start, Nat.pow 85 5⟩
  (read.take length).reverse

end CodeAtlas.Text.Packed
