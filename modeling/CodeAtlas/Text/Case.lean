import CodeAtlas.Text.Ranges
import CodeAtlas.Text.Table

/-!
# Letter case

Lower and upper case of a text by the full mappings of version 14 of the standard: a few letters
map to several, and a capital sigma at the end of a word becomes the final small sigma.
-/

namespace CodeAtlas.Text

/-- Letters `first`, `first + stride`, …, `last`, each mapped to the letter `shift` further on. -/
structure CaseRun where
  first : Nat
  last : Nat
  stride : Nat
  shift : Int

/-- Runs after a point, each given by how far its first letter lies behind the run before it, how
far its last letter lies behind its first, its stride and its shift. -/
def CaseRun.after (point : Nat) : List (Nat × Nat × Nat × Int) → List CaseRun
  | (gap, length, stride, shift) :: more =>
    ⟨point + gap, point + gap + length, stride, shift⟩ :: after (point + gap + length) more
  | [] => []

/-- The runs of a list of gaps, lengths, strides and shifts. -/
def CaseRun.ofGaps (gaps : List (Nat × Nat × Nat × Int)) : Array CaseRun :=
  (after 0 gaps).toArray

/-- Gaps, lengths, strides and shifts from a list of all of them. Odd numbers stand for the shifts
below zero. -/
def CaseRun.gaps : List Nat → List (Nat × Nat × Nat × Int)
  | gap :: length :: stride :: shift :: more =>
    (gap, length, stride, if shift % 2 = 0 then shift / 2 else -((shift : Int) / 2) - 1) :: gaps more
  | _ => []

/-- The letters with another lower case of one letter. -/
def lowerRuns : Array CaseRun :=
  CaseRun.ofGaps (CaseRun.gaps (numbersOf [
    0x1016ba10321012be11221014be10222214ce10422411eb102224d3226932244226d2c08916208916a6c908911b189,
    0x21014ee10221034ee10221014ee10222414de1022de1016ce10421012ce1016ce1026be1012be10221016ae1014ae,
    0x9220a238c102226c17d910118b10222214103220a3220a1410221014102210141009210421016ee10222212ee112,
    0x6f911208a1022991224991070db101921042222cc2209169a10129a10158e10221030a9ad10158d10221016a9ad10,
    0x226b93224916b102224e29220c1e08917b10ca179138c12321015910221037e9106226a190a104c089109208910a2,
    0x925fddb1029224aa18d7fdb91237fdb912d3bac0a1510cefaa17993ab908bcb10608bcb10208bcb15c29dd0c915c3,
    0x1a1013da13491a1013aa11179111979171979171979171b791719792649791519791719791739791519791729226b,
    0xec92104a0c1796d0f10739a8c1015fd8c1041fadb102dc1a1013fb1117fb1149591017bb11179115978b111791149,
    0x1119210321023f8ad1015f8ad1011ff9d1017e8ad102224359f9d10139fe91015df9d1022101e0c917d1ecb4e11b3,
    0xca102222a42223799dca102210522091788a9a10222239224f4224909a222b4a224d69dcf210522219222c915f9ad,
    0x8adca1017b91022269108db1011d8dca1013a9dca1013c8dca10278adca10118adca1015aadca1015badca10178ad,
    0xa12e3dbb69911269916269916926991295ba0a913c19a0a917c68ba08911b4dcbd2105b2226210722217d9a9a1015,
    0x48911c1cadf08917b18ead08917b6dfd08]))

/-- The letters with another upper case of one letter. -/
def upperRuns : Thunk (Array CaseRun) :=
  .mk fun _ => CaseRun.ofGaps (CaseRun.gaps (Table.entries 5).flatten)

/-- Letters after a point and the letters that they map to, two or three; a zero stands for none. -/
def sequences (point : Nat) : List Nat → List (Nat × List Nat)
  | gap :: a :: b :: c :: more =>
    (point + gap, if c = 0 then [a, b] else [a, b, c]) :: sequences (point + gap) more
  | _ => []

/-- The letters whose upper case takes several letters. -/
def upperSequences : Thunk (List (Nat × List Nat)) :=
  .mk fun _ => sequences 0 (Table.entries 6).flatten

def casedRanges : Thunk Ranges :=
  .mk fun _ => .ofGaps (Table.entries 7).flatten

/-- The marks that are passed over when the neighbours of a letter are asked for their case. -/
def caseIgnorableRanges : Thunk Ranges :=
  .mk fun _ => .ofGaps (Table.entries 8).flatten

/-- What the run that holds a letter, if any, maps it to. -/
def mapByRuns (runs : Array CaseRun) (point : Nat) : Nat :=
  match runs.find? (fun run => run.first ≤ point && point ≤ run.last) with
  | none => point
  | some run => if (point - run.first) % run.stride = 0 then (point + run.shift).toNat else point

/-- The lower case of one letter where that is one letter. -/
def lowerChar (c : Char) : Char :=
  if c.toNat < 0x80 then
    if 'A' ≤ c && c ≤ 'Z' then Char.ofNat (c.toNat + 32) else c
  else Char.ofNat (mapByRuns lowerRuns c.toNat)

/-- Whether the nearest letter that is not passed over has case. -/
def nearestIsCased : List Char → Bool
  | [] => false
  | c :: rest =>
    if caseIgnorableRanges.get.contains c.toNat then nearestIsCased rest
    else casedRanges.get.contains c.toNat

/-- Lower case of a text; `before` holds the text already passed, last character first. -/
def lowerFrom (before : List Char) : List Char → List Char
  | [] => []
  | c :: rest =>
    let lowered :=
      if c.toNat = 0x3a3 then
        -- a capital sigma is final after a letter and before none
        [Char.ofNat (if nearestIsCased before && !nearestIsCased rest then 0x3c2 else 0x3c3)]
      else if c.toNat = 0x130 then ['i', Char.ofNat 0x307]
      else [lowerChar c]
    lowered ++ lowerFrom (c :: before) rest

def lower (text : List Char) : List Char :=
  lowerFrom [] text

/-- Upper case of one letter, which may be several. -/
def upperChar (c : Char) : List Char :=
  if c.toNat < 0x80 then
    [if 'a' ≤ c && c ≤ 'z' then Char.ofNat (c.toNat - 32) else c]
  else
    match upperSequences.get.lookup c.toNat with
    | some points => points.map Char.ofNat
    | none => [Char.ofNat (mapByRuns upperRuns.get c.toNat)]

def upper (text : List Char) : List Char :=
  text.flatMap upperChar

/-- The letters that are taken for one another when case is disregarded: a letter is first lowered
(the capital I with a dot to a plain small i), and the dotless i then counts as i and the long s
as s. -/
def foldCase (c : Char) : Char :=
  let n := c.toNat
  if n = 0x130 || n = 0x131 then 'i'
  else if n = 0x17f then 's'
  else lowerChar c

end CodeAtlas.Text
