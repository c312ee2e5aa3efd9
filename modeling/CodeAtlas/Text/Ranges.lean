/-!
# Ranges of code points

A property of characters is kept as an ascending array of closed ranges, and membership is a
binary search. The tables of this library (`Text.Word`, `Text.Printable`, …) are all of this form.
-/

namespace CodeAtlas.Text

/-- Numbers in base eight, written as longer numbers of 93 digits each in base sixteen. The lowest
digit comes first, and eight is added to the digits that are not the last of their number. What is
written so is fast to evaluate in a proof. -/
def numbersOf (lines : List Nat) : List Nat :=
  join 0 (lines.flatMap (digits 93))
where
  digits : Nat → Nat → List Nat
    | 0, _ => []
    | count + 1, n => n % 16 :: digits count (n / 16)
  join (higher : Nat) : List Nat → List Nat
    | [] => []
    | d :: more =>
      if d < 8 then (higher * 8 + d) :: join 0 more else join (higher * 8 + d - 8) more

/-- Ascending, disjoint, closed ranges of code points. -/
abbrev Ranges := Array (Nat × Nat)

namespace Ranges

/-- Ranges after a point, each given by how far its first point lies behind the range before it and
how far its last point lies behind its first. -/
def after (point : Nat) : List Nat → List (Nat × Nat)
  | gap :: length :: more =>
    (point + gap, point + gap + length) :: after (point + gap + length) more
  | _ => []

/-- The ranges of a list of gaps and lengths in turn. -/
def ofGaps (gaps : List Nat) : Ranges :=
  (after 0 gaps).toArray

/-- Binary search between the indices `low` (inclusive) and `high` (exclusive). The search halves
the interval, so `steps` may be any bound on its length. -/
def searchBetween (ranges : Ranges) (point : Nat) : (steps low high : Nat) → Bool
  | 0, _, _ => false
  | steps + 1, low, high =>
    if low < high then
      let middle := (low + high) / 2
      match ranges[middle]? with
      | none => false
      | some (first, last) =>
        if point < first then searchBetween ranges point steps low middle
        else if last < point then searchBetween ranges point steps (middle + 1) high
        else true
    else false

def contains (ranges : Ranges) (point : Nat) : Bool :=
  searchBetween ranges point (ranges.size + 1) 0 ranges.size

end Ranges

end CodeAtlas.Text
