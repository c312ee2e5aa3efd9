import Mathlib.Data.List.Basic
import CodeAtlas.Pattern.Search

/-!
# What a search finds

Matching tries the ways to match a pattern one after another, and searching the places of a text.
The lemmas here say which way and which place is taken:

* `advance_one_eq_some_iff`: a character class takes one character of it;
* `advance_many_of_accepts`: an eager repetition of a class goes on as long as that leads anywhere;
* `find?_eq_some_iff`: a search stops at the first place where the pattern matches.

Places are named by what was passed on the way to them (`Cursor.pass`).
-/

open List

namespace CodeAtlas.Pattern

open Cursor

variable {bound : Nat} {next : State → Option State} {s t : State} {accepts : Char → Bool}

/-! ## Places -/

/-- The place after some text, given what follows it. -/
def Cursor.pass (c : Cursor) (taken rest : List Char) : Cursor :=
  ⟨taken.getLast?.or c.before, c.position + taken.length, rest⟩

theorem Cursor.pass_nil (c : Cursor) : c.pass [] c.rest = c := rfl

theorem Cursor.pass_pass (c : Cursor) (taken rest taken' rest' : List Char) :
    (c.pass taken rest).pass taken' rest' = c.pass (taken ++ taken') rest' := by
  unfold pass
  rw [getLast?_append, Option.or_assoc, length_append, Nat.add_assoc]

/-- The state after some text, given what follows it. -/
def State.pass (s : State) (taken rest : List Char) : State :=
  ⟨s.cursor.pass taken rest, s.captures⟩

theorem State.pass_pass (s : State) (taken rest taken' rest' : List Char) :
    (s.pass taken rest).pass taken' rest' = s.pass (taken ++ taken') rest' :=
  congrArg (State.mk · s.captures) (s.cursor.pass_pass taken rest taken' rest')

/-! ## One character -/

/-- `one` takes one character of its class. -/
theorem advance_one_eq_some_iff : advance bound (one accepts) next s = some t ↔
      ∃ c rest, s.cursor.rest = c :: rest ∧ accepts c ∧ next (s.pass [c] rest) = some t := by
  unfold advance
  cases s.cursor.rest with
  | nil => simp
  | cons c rest =>
    have hstep : s.step c rest = s.pass [c] rest := rfl
    by_cases hc : accepts c = true <;> simp [hc, hstep]

/-! ## Eager repetitions -/

/-- A source begins with some characters of a class, and the rest follows. -/
structure Stretch (accepts : Char → Bool) (source taken rest : List Char) : Prop where
  eq_append : source = taken ++ rest
  accepted : ∀ c ∈ taken, accepts c = true

theorem Stretch.nil (source : List Char) : Stretch accepts source [] source :=
  ⟨rfl, by simp⟩

theorem Stretch.cons {c : Char} {source taken rest : List Char} (hc : accepts c)
    (h : Stretch accepts source taken rest) : Stretch accepts (c :: source) (c :: taken) rest := by
  refine ⟨congrArg (c :: ·) h.eq_append, fun d hd => ?_⟩
  obtain rfl | hd := mem_cons.mp hd
  · exact hc
  · exact h.accepted d hd

/-- A character of the class begins the `Stretch` unless that is empty. -/
theorem stretch_cons_iff {c : Char} {source taken rest : List Char} (hc : accepts c) :
    Stretch accepts (c :: source) taken rest ↔ taken = [] ∧ rest = c :: source ∨
        ∃ taken', taken = c :: taken' ∧ Stretch accepts source taken' rest := by
  constructor
  · rintro ⟨happend, haccepted⟩
    cases taken with
    | nil => exact .inl ⟨rfl, happend.symm⟩
    | cons d taken =>
      rw [cons_append, cons.injEq] at happend
      obtain ⟨rfl, happend⟩ := happend
      exact .inr ⟨taken, rfl, happend, fun d hd => haccepted d (mem_cons_of_mem _ hd)⟩
  · rintro (⟨rfl, rfl⟩ | ⟨taken, rfl, h⟩)
    · exact .nil _
    · exact h.cons hc

/-- Behind the characters of a class none of them comes next. -/
theorem head?_dropWhile (accepts : Char → Bool) (text : List Char) :
    (text.dropWhile accepts).head?.any accepts = false := by
  induction text with
  | nil => rfl
  | cons c text ih => cases hc : accepts c <;> simp [hc, ih]

theorem spanStates_append (most : Option Nat) (before : Option Char) (position : Nat)
    (captures : List (Nat × Capture)) (rest : List Char) (passed : List State) :
    spanStates accepts most before position captures rest passed =
      spanStates accepts most before position captures rest [] ++ passed := by
  induction rest generalizing most before position passed with
  | nil => rfl
  | cons c rest ih =>
    rw [spanStates, spanStates]
    by_cases hc : (accepts c && most != some 0)
    · simp only [hc, if_true]
      rw [ih, ih _ _ _ [_], append_assoc, singleton_append]
    · simp [hc]

/-- `many`, which is eager, goes on by one character if that leads anywhere. -/
theorem advance_many_of_accepts {c : Char} {rest : List Char} (hrest : s.cursor.rest = c :: rest)
    (hc : accepts c) : advance bound (many accepts) next s =
      (advance bound (many accepts) next (s.pass [c] rest)).or (next s) := by
  have hspan : spanStates accepts none s.cursor.before s.cursor.position s.captures s.cursor.rest [] =
      spanStates accepts none (some c) (s.cursor.position + 1) s.captures rest [s] := by
    rw [hrest, spanStates]
    simp only [hc, Bool.true_and]
    rw [← hrest]
    rfl
  change (spanStates accepts none s.cursor.before s.cursor.position s.captures s.cursor.rest
    []).findSome? next = ((spanStates accepts none (some c) (s.cursor.position + 1) s.captures rest
    []).findSome? next).or (next s)
  rw [hspan, spanStates_append, findSome?_append]
  simp

/-- `many` stops where its class ends. -/
theorem advance_many_of_stops (hstop : s.cursor.rest.head?.any accepts = false) :
    advance bound (many accepts) next s = next s := by
  have hspan : spanStates accepts none s.cursor.before s.cursor.position s.captures s.cursor.rest [] =
      [s] := by
    cases hrest : s.cursor.rest with
    | nil => rw [spanStates, ← hrest]
    | cons c rest =>
      rw [hrest] at hstop
      have hc : accepts c = false := hstop
      rw [spanStates]
      simp only [hc, Bool.false_and, Bool.false_eq_true, if_false]
      rw [← hrest]
  change (spanStates accepts none s.cursor.before s.cursor.position s.captures s.cursor.rest
    []).findSome? next = next s
  rw [hspan]
  simp

/-! ## Searching -/

variable {p : Pattern} {c : Cursor} {m : Match}

theorem firstFrom?_of_some (h : matchAt? p bound false c = some m) :
    firstFrom? p bound c.before c.position c.rest = some m := by
  rw [firstFrom?.eq_def, h]

theorem firstFrom?_of_none {d : Char} {rest : List Char} (hrest : c.rest = d :: rest)
    (h : matchAt? p bound false c = none) : firstFrom? p bound c.before c.position c.rest =
      firstFrom? p bound (c.pass [d] rest).before (c.pass [d] rest).position
        (c.pass [d] rest).rest := by
  rw [firstFrom?.eq_def, h, hrest]
  rfl

/-- After some text the pattern matches, and nowhere before. -/
structure FirstMatch (p : Pattern) (bound : Nat) (c : Cursor) (passed rest : List Char) (m : Match) :
    Prop where
  eq_append : c.rest = passed ++ rest
  here : matchAt? p bound false (c.pass passed rest) = some m
  none_before : ∀ passed' d between, passed = passed' ++ d :: between →
    matchAt? p bound false (c.pass passed' (d :: between ++ rest)) = none

theorem FirstMatch.of_here (h : matchAt? p bound false c = some m) :
    FirstMatch p bound c [] c.rest m :=
  ⟨rfl, h, by simp⟩

theorem FirstMatch.cons {d : Char} {rest passed rest' : List Char} (hrest : c.rest = d :: rest)
    (hnone : matchAt? p bound false c = none)
    (h : FirstMatch p bound (c.pass [d] rest) passed rest' m) :
    FirstMatch p bound c (d :: passed) rest' m := by
  have hrest' : rest = passed ++ rest' := h.eq_append
  refine ⟨by rw [hrest, hrest', cons_append], ?_, fun passed' d' between hpassed => ?_⟩
  · rw [← singleton_append, ← pass_pass c [d] rest]
    exact h.here
  · cases passed' with
    | nil =>
      cases hpassed
      rw [cons_append, ← hrest', ← hrest]
      exact hnone
    | cons e passed' =>
      cases hpassed
      rw [← singleton_append, ← pass_pass c [d] rest]
      exact h.none_before passed' d' between rfl

theorem exists_firstMatch (h : firstFrom? p bound c.before c.position c.rest = some m) :
    ∃ passed rest, FirstMatch p bound c passed rest m := by
  have hfound : ∀ {c : Cursor} {m' : Match}, matchAt? p bound false c = some m' →
      firstFrom? p bound c.before c.position c.rest = some m →
        ∃ passed rest, FirstMatch p bound c passed rest m := by
    intro c m' hmatch h
    rw [firstFrom?_of_some hmatch] at h
    cases h
    exact ⟨[], c.rest, .of_here hmatch⟩
  induction hrest : c.rest generalizing c with
  | nil =>
    cases hmatch : matchAt? p bound false c with
    | none =>
      rw [firstFrom?.eq_def, hmatch, hrest] at h
      cases h
    | some m' => exact hfound hmatch h
  | cons d rest ih =>
    cases hmatch : matchAt? p bound false c with
    | none =>
      rw [firstFrom?_of_none hrest hmatch] at h
      obtain ⟨passed, rest', hfirst⟩ := ih h rfl
      exact ⟨d :: passed, rest', hfirst.cons hrest hmatch⟩
    | some m' => exact hfound hmatch h

/-- `firstFrom?` stops at the first place where the pattern matches. -/
theorem firstFrom?_eq_some_iff : firstFrom? p bound c.before c.position c.rest = some m ↔
      ∃ passed rest, FirstMatch p bound c passed rest m := by
  refine ⟨exists_firstMatch, ?_⟩
  rintro ⟨passed, rest, happend, hhere, hbefore⟩
  induction passed generalizing c with
  | nil =>
    rw [nil_append] at happend
    rw [← happend, pass_nil] at hhere
    exact firstFrom?_of_some hhere
  | cons d passed ih =>
    have hnone := hbefore [] d passed rfl
    rw [← happend, pass_nil] at hnone
    rw [firstFrom?_of_none happend hnone]
    refine ih rfl ?_ fun passed' d' between hpassed => ?_
    · rw [pass_pass]
      exact hhere
    · rw [pass_pass]
      exact hbefore (d :: passed') d' between (congrArg (d :: ·) hpassed)

/-- `find?` stops at the first place of a text where the pattern matches. -/
theorem find?_eq_some_iff {text : List Char} : p.find? text = some m ↔
      ∃ passed rest, FirstMatch p text.length (start text) passed rest m := by
  rw [← firstFrom?_eq_some_iff]
  rfl

end CodeAtlas.Pattern
