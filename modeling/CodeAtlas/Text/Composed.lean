import CodeAtlas.Text.Table
import Std.Data.TreeMap

/-!
# Composed form

Identifiers that differ only in how their characters are encoded are the same. Each character is
taken apart as far as possible, marks after a letter are put in order, and then all is put together
again. The tables are those of version 14 of the standard, for the characters that identifiers are
made of.
-/

namespace CodeAtlas.Text

namespace Composed

/-! ## Tables -/

/-- The pairs of the table, each with the character that it makes. -/
def pairsFrom (whole : Nat) : List Nat → List (Nat × Nat × Nat)
  | a :: b :: rest => (whole, a, b) :: pairsFrom (whole + 1) rest
  | _ => []

/-- The characters that two others make together, in order. -/
def pairs (_ : Unit) : List (Nat × Nat × Nat) :=
  (Table.entries 2).flatMap fun
    | whole :: letters => pairsFrom whole letters
    | [] => []

/-- What each character stands for, where that is not itself. What two characters make stands for
what these stand for, one after the other. -/
def parts : Thunk (Std.TreeMap Nat (List Nat)) := .mk fun _ =>
  let rows := (Table.entries 0).flatMap fun
    | [first, last, target] =>
      (List.range (last + 1 - first)).map fun i => (first + i, [target + i])
    | _ => []
  let singles := (Table.entries 1).flatMap fun
    | first :: targets => targets.zipIdx.map fun (target, i) => (first + i, [target])
    | [] => []
  let several := (Table.entries 3).filterMap fun
    | point :: targets => some (point, targets)
    | [] => none
  let known : Std.TreeMap Nat (List Nat) := .ofList (rows ++ singles)
  let known := (pairs ()).foldl
    (fun known (whole, a, b) =>
      known.insert whole ((known[a]?).getD [a] ++ (known[b]?).getD [b])) known
  known.insertMany several

/-- A pair of characters as one number. -/
def pairKey (a b : Nat) : Nat :=
  a * 0x110000 + b

/-- What two characters make together. -/
def wholes : Thunk (Std.TreeMap Nat Nat) :=
  .mk fun _ => .ofList ((pairs ()).map fun (whole, a, b) => (pairKey a b, whole))

def classes : Thunk (Std.TreeMap Nat Nat) :=
  .mk fun _ => .ofList ((Table.entries 4).flatMap fun
    | [first, last, number] => (List.range (last + 1 - first)).map fun i => (first + i, number)
    | _ => [])

/-- The class of a character; zero if it is no mark. -/
def classOf (point : Nat) : Nat :=
  (classes.get[point]?).getD 0

/-! ## Taking apart -/

/-- The first of the syllables that are made of two or three letters by rule. -/
def firstSyllable : Nat := 0xac00

/-- The letters of a syllable; its number gives the leading consonant, the vowel and the trailing
consonant, of which there are 19, 21 and 27. -/
def syllableParts (point : Nat) : List Nat :=
  let n := point - firstSyllable
  let trailing := n % 28
  [0x1100 + n / 588, 0x1161 + n % 588 / 28] ++ (if trailing = 0 then [] else [0x11a7 + trailing])

/-- What a character stands for. -/
def partsOf (point : Nat) : List Nat :=
  if firstSyllable ≤ point && point < firstSyllable + 11172 then syllableParts point
  else (parts.get[point]?).getD [point]

/-! ## Ordering marks -/

/-- Adds a character to others that stand in reverse order: a mark goes before all marks of a
greater class. -/
def addOrdered (point : Nat) : List Nat → List Nat
  | [] => [point]
  | p :: before =>
    if classOf point ≠ 0 && classOf point < classOf p then p :: addOrdered point before
    else point :: p :: before

/-- Puts marks in order. -/
def ordered (points : List Nat) : List Nat :=
  (points.foldl (fun done p => addOrdered p done) []).reverse

/-! ## Putting together -/

/-- What two neighbours make together. -/
def whole? (a b : Nat) : Option Nat :=
  if 0x1100 ≤ a && a < 0x1113 && 0x1161 ≤ b && b < 0x1176 then
    some (firstSyllable + ((a - 0x1100) * 21 + (b - 0x1161)) * 28)
  else if firstSyllable ≤ a && a < firstSyllable + 11172 && (a - firstSyllable) % 28 = 0 &&
      0x11a7 < b && b < 0x11c3 then some (a + (b - 0x11a7))
  else wholes.get[pairKey a b]?

/-- Puts a letter together with the marks after it, past the marks `between` that it did not take,
which stand in reverse order. A mark is reached only past marks of lesser classes. -/
def composeFrom (letter : Nat) (between : List Nat) : List Nat → List Nat
  | [] => letter :: between.reverse
  | p :: rest =>
    let isReached := match between with
      | [] => true
      | b :: _ => classOf b < classOf p
    match if isReached then whole? letter p else none with
    | some whole => composeFrom whole between rest
    | none =>
      if classOf p = 0 then letter :: between.reverse ++ composeFrom p [] rest
      else composeFrom letter (p :: between) rest

/-- Puts characters together where they can be. -/
def compose : List Nat → List Nat
  | [] => []
  | p :: rest => if classOf p = 0 then composeFrom p [] rest else p :: compose rest

end Composed

/-- The composed form of an identifier; in ASCII it is the identifier itself. -/
def identifierForm (id : String) : String :=
  if id.toList.all fun c => c.toNat < 0x80 then id
  else
    let points := id.toList.flatMap fun c => Composed.partsOf c.toNat
    String.ofList ((Composed.compose (Composed.ordered points)).map Char.ofNat)

end CodeAtlas.Text
