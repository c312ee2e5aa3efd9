import CodeAtlas.Proofs.Spelling

/-!
# How a match begins and goes on

Two questions decide most steps of a match. Can a pattern begin with the next character at all? The
functions `takes` and `skips` answer it from the pattern alone, and a pattern that can neither take
the next character nor do without it fails (`Refuses.advance_eq_none`). Where does an eager
repetition stop? At the end of its stretch, if what follows it refuses every character of the
stretch (`advance_many_eq`); then nothing is ever taken back.
-/

open List

namespace CodeAtlas

/-- What holds of the characters of a text is decided along the text, not for all characters. -/
instance (priority := high) Text.decidableForallMem {property : Char → Prop}
    [DecidablePred property] (text : List Char) : Decidable (∀ c ∈ text, property c) :=
  decidableBAll property text

namespace Pattern

variable {bound : Nat} {next : State → Option State} {s t : State} {accepts : Char → Bool}
variable {p q : Pattern} {o : Option Char}

/-! ## What a pattern can begin with -/

/-- A pattern cannot match where a character, or the end of the text, comes next. -/
structure Refuses (p : Pattern) (o : Option Char) : Prop where
  takes : p.takes o = false
  skips : p.skips = false

theorem Refuses.not_mem_ways (h : p.Refuses s.cursor.rest.head?) : t ∉ ways bound p s := by
  intro ht
  obtain ⟨taken, ⟨rest, hrest, -⟩, hallows⟩ := reaches_of_mem_ways ht
  cases taken with
  | nil => exact absurd hallows (by simp [allows, h.skips])
  | cons c taken =>
    have htakes : p.takes (some c) = false := by simpa [hrest] using h.takes
    exact absurd hallows (by simp [allows, htakes])

/-- A pattern that `Refuses` what comes next fails. -/
theorem Refuses.advance_eq_none (h : p.Refuses s.cursor.rest.head?) :
    advance bound p next s = none :=
  advance_eq_none_iff.mpr fun _ ht => absurd ht h.not_mem_ways

theorem Refuses.append (hp : p.takes o = false) (hq : q.Refuses o) : (p ++ q).Refuses o := by
  constructor
  · show (p.takes o || p.skips && q.takes o) = false
    rw [hp, hq.takes, Bool.and_false, Bool.or_false]
  · show (p.skips && q.skips) = false
    rw [hq.skips, Bool.and_false]

theorem Refuses.append_left (hp : p.Refuses o) : (p ++ q).Refuses o := by
  constructor
  · show (p.takes o || p.skips && q.takes o) = false
    rw [hp.takes, hp.skips, Bool.false_and, Bool.or_false]
  · show (p.skips && q.skips) = false
    rw [hp.skips, Bool.false_and]

/-- The tests one of which the first character of a match passes. -/
def heads : Pattern → List (Char → Bool)
  | nothing | ahead _ | notAhead _ | edge _ => []
  | same _ => [fun _ => true]
  | one accepts | span accepts _ _ _ => [accepts]
  | both first second => first.heads ++ if first.skips then second.heads else []
  | either first second => first.heads ++ second.heads
  | again body _ _ _ | group _ body => body.heads

theorem takes_eq_any_heads (p : Pattern) (c : Char) : p.takes (some c) = p.heads.any (· c) := by
  induction p with
  | both first second ihfirst ihsecond =>
    rw [takes, heads, any_append, ihfirst, ihsecond]
    cases first.skips <;> rfl
  | either first second ihfirst ihsecond =>
    rw [takes, heads, any_append, ihfirst, ihsecond]
  | again _ _ _ _ ih | group _ _ ih => exact ih
  | one _ | span _ _ _ _ => exact (Bool.or_false _).symm
  | _ => rfl

theorem Refuses.of_heads {c : Char} (hskips : p.skips = false)
    (h : ∀ accepts ∈ p.heads, accepts c = false) : p.Refuses (some c) := by
  refine ⟨?_, hskips⟩
  rw [takes_eq_any_heads, any_eq_false]
  intro accepts haccepts
  rw [h accepts haccepts]
  exact Bool.false_ne_true

/-! ## Steps of a match -/

theorem advance_edge {holds : Option Char → Option Char → Bool}
    (h : holds s.cursor.before s.cursor.rest.head?) :
    advance bound (edge holds) next s = next s := by
  rw [advance, if_pos h]

variable {text : String} {rest taken : List Char}

theorem advance_lit (hrest : s.cursor.rest = text.toList ++ rest) :
    advance bound (lit text) next s = next (s.pass text.toList rest) := by
  unfold lit
  generalize text.toList = chars at hrest ⊢
  induction chars generalizing s with
  | nil =>
    rw [nil_append] at hrest
    subst hrest
    rfl
  | cons c chars ih =>
    have hstep : ∀ next',
        advance bound (char c) next' s = next' (s.pass [c] (chars ++ rest)) := by
      intro next'
      rw [char, advance, hrest]
      simp only [cons_append, beq_self_eq_true, if_true]
      rfl
    cases chars with
    | nil => exact hstep next
    | cons d chars =>
      show advance bound (char c) (advance bound (ofChars (d :: chars)) next) s = _
      rw [hstep, ih rfl, State.pass_pass, singleton_append]

/-- `lit` fails where its text does not stand. -/
theorem advance_lit_of_not_prefix (h : ¬ text.toList <+: s.cursor.rest) :
    advance bound (lit text) next s = none := by
  refine advance_eq_none_iff.mpr fun t ht => ?_
  obtain ⟨rest, hrest, -⟩ := mem_ways_lit.mp ht
  exact absurd ⟨rest, hrest.symm⟩ h

/-- `many` takes its whole stretch if what follows declines every part of it. -/
theorem advance_many_eq (hrest : s.cursor.rest = taken ++ rest) (htaken : ∀ c ∈ taken, accepts c)
    (hstop : rest.head?.any accepts = false)
    (hnext : ∀ c ∈ taken, ∀ t : State, t.cursor.rest.head? = some c → next t = none) :
    advance bound (many accepts) next s = next (s.pass taken rest) := by
  induction taken generalizing s with
  | nil =>
    rw [nil_append] at hrest
    subst hrest
    exact advance_many_of_stops hstop
  | cons c taken ih =>
    have hhere : next s = none := hnext c mem_cons_self s (by rw [hrest]; rfl)
    rw [advance_many_of_accepts hrest (htaken c mem_cons_self), hhere, Option.or_none,
      ih rfl (fun d hd => htaken d (mem_cons_of_mem _ hd))
        (fun d hd => hnext d (mem_cons_of_mem _ hd)), State.pass_pass, singleton_append]

theorem advance_many1 : advance bound (many1 accepts) next s =
      advance bound (one accepts) (advance bound (many accepts) next) s := by
  rw [advance_eq_findSome?, ways_many1, ← advance_eq_findSome?, advance_append]

/-- If the rest matches after the whole stretch, `many` takes that. -/
theorem advance_many_of_some (hrest : s.cursor.rest = taken ++ rest)
    (htaken : ∀ c ∈ taken, accepts c) (hstop : rest.head?.any accepts = false)
    (hnext : next (s.pass taken rest) = some t) : advance bound (many accepts) next s = some t := by
  induction taken generalizing s with
  | nil =>
    rw [nil_append] at hrest
    subst hrest
    rw [advance_many_of_stops hstop]
    exact hnext
  | cons c taken ih =>
    rw [advance_many_of_accepts hrest (htaken c mem_cons_self),
      ih rfl (fun d hd => htaken d (mem_cons_of_mem _ hd))
        (by rw [State.pass_pass]; exact hnext), Option.some_or]

theorem advance_many1_of_some (hrest : s.cursor.rest = taken ++ rest) (hne : taken ≠ [])
    (htaken : ∀ c ∈ taken, accepts c) (hstop : rest.head?.any accepts = false)
    (hnext : next (s.pass taken rest) = some t) :
    advance bound (many1 accepts) next s = some t := by
  obtain ⟨c, taken, rfl⟩ := exists_cons_of_ne_nil hne
  rw [advance_many1]
  refine advance_one_eq_some_iff.mpr ⟨c, taken ++ rest, hrest, htaken c mem_cons_self, ?_⟩
  refine advance_many_of_some rfl (fun d hd => htaken d (mem_cons_of_mem _ hd)) hstop ?_
  rw [State.pass_pass]
  exact hnext

/-! ## Choices -/

theorem advance_either_of_none (h : advance bound p next s = none) :
    advance bound (either p q) next s = advance bound q next s := by
  rw [advance, h]

theorem advance_either_of_some (h : advance bound p next s = some t) :
    advance bound (either p q) next s = some t := by
  rw [advance, h]

theorem advance_opt_of_none (h : advance bound p next s = none) :
    advance bound (opt p) next s = next s :=
  advance_either_of_none h

theorem advance_oneOf_of_some {ps : List Pattern} (hmem : p ∈ ps)
    (h : advance bound p next s = some t)
    (hother : ∀ q ∈ ps, q ≠ p → advance bound q next s = none) :
    advance bound (oneOf ps) next s = some t := by
  induction ps with
  | nil => cases hmem
  | cons q ps ih =>
    cases ps with
    | nil =>
      obtain rfl := mem_singleton.mp hmem
      exact h
    | cons r ps =>
      show advance bound (either q (oneOf (r :: ps))) next s = some t
      by_cases hq : q = p
      · rw [hq]
        exact advance_either_of_some h
      · rw [advance_either_of_none (hother q mem_cons_self hq)]
        refine ih ?_ fun q' hq' => hother q' (mem_cons_of_mem _ hq')
        exact (mem_cons.mp hmem).resolve_left fun hp => hq hp.symm

end Pattern

end CodeAtlas
