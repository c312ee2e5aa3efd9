import CodeAtlas.Outline.Go
import CodeAtlas.Proofs.Words

/-!
# Functions without a receiver

Functions are looked for after the methods, and those that were found as methods are to be left out.
What is left out is any function that begins ten characters behind the word `func` and an opening
parenthesis. But where a method begins, no function does (`method_start_ne`), so this never leaves
out what was found already. It leaves out what stands ten characters behind a function literal, as
in `func() {}` with a line feed after it.
-/

open List

namespace CodeAtlas.Go

open Pattern Text

/-- How a method begins. -/
def opening : Pattern :=
  lit "func" ++ blanks ++ lit "("

/-- A text begins with the word `func` and an opening parenthesis, with nothing but white space
between them. -/
def Opens (text : List Char) : Prop :=
  ∃ gap rest, text = "func".toList ++ (gap ++ '(' :: rest) ∧ ∀ c ∈ gap, isBlank c = true

/-- The ten characters before a position begin as a method does. -/
def OpensBefore (code : List Char) (position : Nat) : Prop :=
  10 ≤ position ∧ Opens ((code.take position).drop (position - 10))

variable {bound : Nat} {s t : State} {code text : List Char} {m m' : Match}

theorem opens_of_mem_ways (h : t ∈ ways bound opening s) : Opens s.cursor.rest := by
  obtain ⟨u, hu, hparenthesis⟩ := mem_ways_append.mp h
  obtain ⟨v, hv, hgap⟩ := mem_ways_append.mp hu
  obtain ⟨rest₁, hfunc, rfl⟩ := mem_ways_lit.mp hv
  obtain ⟨gap, rest₂, ⟨hsplit, hblank⟩, rfl⟩ := mem_ways_many.mp hgap
  obtain ⟨rest₃, hrest, -⟩ := mem_ways_lit.mp hparenthesis
  have hsplit : rest₁ = gap ++ rest₂ := hsplit
  have hrest : rest₂ = '(' :: rest₃ := hrest
  exact ⟨gap, rest₃, by rw [hfunc, hsplit, hrest], hblank⟩

theorem isSome_matchStart?_opening : (opening.matchStart? text).isSome ↔ Opens text := by
  constructor
  · intro h
    obtain ⟨m, hm⟩ := Option.isSome_iff_exists.mp h
    obtain ⟨t, ht, -⟩ := exists_way_of_matchAt? hm
    exact opens_of_mem_ways ht
  · rintro ⟨gap, rest, rfl, hblank⟩
    have hfits : opening.Fits ("func".toList ++ gap ++ "(".toList) rest :=
      ((Fits.lit "func" _).append (.many hblank _)).append (.lit "(" rest)
    obtain ⟨t, -, hmatch⟩ := hfits.matchAt? _ (c := .start ("func".toList ++ (gap ++ '(' :: rest)))
      (by simp [Cursor.start])
    exact Option.isSome_iff_exists.mpr ⟨_, hmatch⟩

instance : DecidablePred Opens :=
  fun _ => decidable_of_iff _ isSome_matchStart?_opening

instance (code : List Char) : DecidablePred (OpensBefore code) :=
  fun _ => inferInstanceAs (Decidable (_ ∧ _))

/-! ## Where functions and methods begin -/

/-- `functionPattern` fails where a method begins. -/
theorem failsAt_functionPattern (h : Opens text) : functionPattern.FailsAt text := by
  obtain ⟨gap, rest, rfl, hblank⟩ := h
  have hname : (group 1 (many1 isWord)).Refuses (some '(') := ⟨by decide, rfl⟩
  have hpasses : Passes (group 1 (many1 isWord)) gap ('(' :: rest) := by
    refine .of_refuses fun c hc => ⟨?_, rfl⟩
    rw [← Bool.not_eq_true]
    exact fun hword => by simpa [hblank c hc] using isBlank_of_isWord hword
  have hgap : (blanks1 ++ group 1 (many1 isWord)).FailsAt (gap ++ '(' :: rest) :=
    .within .span hpasses (by decide : isBlank '(' = false) (.of_refuses hname)
  have hstart : (lit "func" ++ blanks1 ++ group 1 (many1 isWord)).FailsAt
      ("func".toList ++ (gap ++ '(' :: rest)) := hgap.lit_append
  exact (((hstart.append _).append _).append _).append _

theorem failsAt_methodPattern (h : ¬ Opens text) : methodPattern.FailsAt text := by
  have hopening : opening.FailsAt text := .of_ways fun bound s hrest t ht =>
    h (hrest ▸ opens_of_mem_ways ht)
  exact (((((((hopening.append _).append _).append _).append _).append _).append _).append _).append _

theorem method_start_ne (hm : m ∈ functionPattern.findAll code)
    (hm' : m' ∈ methodPattern.findAll code) : m'.start ≠ m.start := by
  obtain ⟨passed, rest, hcode, t, ht, rfl⟩ := exists_way_of_mem_findAll hm
  obtain ⟨passed', rest', hcode', t', ht', rfl⟩ := exists_way_of_mem_findAll hm'
  intro hstart
  have hlength : passed'.length = passed.length := by
    simpa [Match.ofWay, Cursor.pass, Cursor.start] using hstart
  obtain ⟨-, rfl⟩ := append_inj (hcode'.symm.trans hcode) hlength
  by_cases hopens : Opens rest'
  · exact (failsAt_functionPattern hopens).not_mem_ways rfl ht
  · exact (failsAt_methodPattern hopens).not_mem_ways rfl ht'

/-! ## What is left out -/

theorem exists_of_mem_functions (hm : m ∈ functionPattern.findAll code) :
    ∃ passed rest, code = passed ++ "func".toList ++ rest ∧ m.start = passed.length := by
  obtain ⟨passed, rest, hcode, t, ht, rfl⟩ := exists_way_of_mem_findAll hm
  have hkeyword : "func".toList <+: rest := by
    by_contra hnot
    have hfails : functionPattern.FailsAt rest :=
      ((((((FailsAt.lit hnot).append _).append _).append _).append _).append _).append _
    exact hfails.not_mem_ways rfl ht
  obtain ⟨rest, rfl⟩ := hkeyword
  refine ⟨passed, rest, by rw [hcode, append_assoc], ?_⟩
  simp [Match.ofWay, Cursor.pass, Cursor.start]

/-- A parenthesis in front of a keyword stands before it, as no keyword is white space. -/
theorem opens_append_iff {near more : List Char} (hnear : near.length = 10) :
    Opens (near ++ 'f' :: more) ↔ Opens near := by
  constructor
  · rintro ⟨gap, rest, hsplit, hblank⟩
    have hsplit : near ++ 'f' :: more = ("func".toList ++ gap) ++ '(' :: rest := by
      rw [hsplit, append_assoc]
    rcases append_eq_append_iff.mp hsplit with ⟨z, hgap, hmore⟩ | ⟨z, rfl, hmore⟩
    · -- the keyword would begin in the white space
      cases z with
      | nil => cases hmore
      | cons c z =>
        obtain rfl : 'f' = c := (cons.inj hmore).1
        have hdrop : gap = (near ++ 'f' :: z).drop 4 := congrArg (drop 4) hgap
        rw [drop_append_of_le_length (by omega)] at hdrop
        exact absurd (hblank 'f' (by simp [hdrop])) (by decide)
    · cases z with
      | nil => cases hmore
      | cons c z =>
        obtain ⟨rfl, -⟩ := cons.inj hmore
        exact ⟨gap, z, append_assoc .., hblank⟩
  · rintro ⟨gap, rest, rfl, hblank⟩
    exact ⟨gap, rest ++ 'f' :: more, by simp, hblank⟩

/-- `followsReceiver` holds ten characters behind the beginning of a method. -/
theorem followsReceiver_iff (hm : m ∈ functionPattern.findAll code) :
    followsReceiver code m.start ↔ OpensBefore code m.start := by
  obtain ⟨passed, rest, rfl, hstart⟩ := exists_of_mem_functions hm
  rw [followsReceiver, Bool.and_eq_true, decide_eq_true_eq, hstart, OpensBefore]
  refine and_congr_right fun hten => ?_
  obtain ⟨front, near, rfl, hfront⟩ : ∃ front near, passed = front ++ near ∧
      front.length = passed.length - 10 :=
    ⟨_, _, (take_append_drop (passed.length - 10) passed).symm, by simp⟩
  have hnear : near.length = 10 := by
    rw [length_append] at hten hfront
    omega
  have hwindow : ((front ++ near ++ "func".toList ++ rest).drop
      ((front ++ near).length - 10)).take 15 = near ++ 'f' :: ("unc".toList ++ rest.take 1) := by
    rw [← hfront, append_assoc, append_assoc, drop_left, take_append, hnear,
      take_of_length_le (by omega)]
    rfl
  have hbefore : ((front ++ near ++ "func".toList ++ rest).take (front ++ near).length).drop
      ((front ++ near).length - 10) = near := by
    rw [← hfront, append_assoc (front ++ near), take_left, drop_left]
  rw [hwindow, hbefore, ← opens_append_iff hnear]
  exact isSome_matchStart?_opening

def plainEntry (m : Match) : FunctionEntry :=
  ⟨String.ofList (m.group 1), none, Outline.paramList (m.group 2),
    (m.group? 3).map fun r => String.ofList (trim r)⟩

theorem filter_functions (code : List Char) :
    (functions code).filter (·.receiver.isNone) = plainFunctions code := by
  have hmethods : (methods code).filter (·.receiver.isNone) = [] := by
    simp [methods]
  have hplain : (plainFunctions code).filter (·.receiver.isNone) = plainFunctions code := by
    rw [plainFunctions, filter_map]
    exact congrArg _ (filter_eq_self.mpr fun _ _ => rfl)
  rw [functions, filter_append, hmethods, hplain, nil_append]

/-- **What is reported without a receiver.** The functions that are left out are those that begin
ten characters behind the beginning of a method. None of them was found as a method, and nothing
is left out exactly if no function begins there. -/
theorem functions_left_out (code : List Char) :
    (functions code).filter (·.receiver.isNone) =
      ((functionPattern.findAll code).filter fun m => ¬ OpensBefore code m.start).map plainEntry ∧
    (∀ m ∈ functionPattern.findAll code, ∀ m' ∈ methodPattern.findAll code, m'.start ≠ m.start) ∧
    ((functions code).filter (·.receiver.isNone) = (functionPattern.findAll code).map plainEntry ↔
      ∀ m ∈ functionPattern.findAll code, ¬ OpensBefore code m.start) := by
  have hreported : (functions code).filter (·.receiver.isNone) =
      ((functionPattern.findAll code).filter fun m => ¬ OpensBefore code m.start).map plainEntry := by
    rw [filter_functions]
    refine congrArg (List.map plainEntry) (filter_congr fun m hm => ?_)
    rw [Bool.eq_iff_iff, Bool.not_eq_true', ← Bool.not_eq_true, followsReceiver_iff hm,
      decide_eq_true_eq]
  refine ⟨hreported, fun m hm m' hm' => method_start_ne hm hm', ?_⟩
  rw [hreported]
  constructor
  · intro hall m hm
    have hlength := congrArg length hall
    rw [length_map, length_map, length_filter_eq_length_iff] at hlength
    exact of_decide_eq_true (hlength m hm)
  · intro hnone
    rw [filter_eq_self.mpr fun m hm => decide_eq_true (hnone m hm)]

/-- A function in the line after a function literal is left out. -/
theorem functions_after_literal :
    functions "var f = func() \x7b\x7d\nfunc g() \x7b\x7d".toList = [] ∧
      functions "var f = func() \x7b \x7d\nfunc g() \x7b\x7d".toList = [⟨"g", none, [], none⟩] := by
  decide +kernel

end CodeAtlas.Go
