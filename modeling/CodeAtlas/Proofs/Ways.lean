import CodeAtlas.Proofs.Pattern

/-!
# The ways to match

Matching tries the ways in which a pattern can match one after another. `ways` lists the states that
they lead to, the preferred one first, by recursion on the pattern. The main result
(`advance_eq_findSome?`) is that matching takes the first of them from which the rest leads on. So a
match is refuted by a look at all ways, and where all ways that lead on agree, what is found is
known without following the order in which they are tried (`advance_eq_none_iff`,
`exists_mem_ways`).

The second half says what the ways of the common patterns are, and that every way leads on in the
text (`reaches_of_mem_ways`).
-/

open List

namespace CodeAtlas.Pattern

variable {bound : Nat} {next : State → Option State} {s t u : State} {accepts : Char → Bool}
variable {p q : Pattern}

/-- A state that remembers the text since another as a group. -/
def State.since (t : State) (index : Nat) (s : State) : State :=
  { t with captures := (index, ⟨s.cursor.position, s.cursor.rest,
      t.cursor.position - s.cursor.position⟩) :: t.captures }

theorem advance_append (p q : Pattern) :
    advance bound (p ++ q) next = advance bound p (advance bound q next) := rfl

theorem advance_group (index : Nat) (body : Pattern) : advance bound (group index body) next s =
      advance bound body (fun t => next (t.since index s)) s := rfl

/-! ## Lists of ways -/

/-- The ways to make a number of rounds. -/
def roundWays (round : State → List State) : (count : Nat) → State → List State
  | 0, s => [s]
  | count + 1, s => (round s).flatMap (roundWays round count)

/-- The ways to make up to a number of rounds that all move on. -/
def moreWays (round : State → List State) (eager : Bool) : (count : Nat) → State → List State
  | 0, s => [s]
  | count + 1, s =>
    let further := (round s).flatMap fun t =>
      if s.cursor.position < t.cursor.position then moreWays round eager count t else []
    if eager then further ++ [s] else s :: further

/-- The states after some characters of a class, the furthest first. -/
def stretchWays (accepts : Char → Bool) (most : Option Nat) (s : State) : List State :=
  spanStates accepts most s.cursor.before s.cursor.position s.captures s.cursor.rest []

/-- The states where the ways to match a pattern end, the preferred one first. -/
def ways (bound : Nat) : Pattern → State → List State
  | nothing, s => [s]
  | one accepts, s => (takeExactly accepts 1 s).toList
  | span accepts least most eager, s =>
    (takeExactly accepts least s).toList.flatMap fun t =>
      let reached := stretchWays accepts (most.map (· - least)) t
      if eager then reached else reached.reverse
  | both first second, s => (ways bound first s).flatMap (ways bound second)
  | either first second, s => ways bound first s ++ ways bound second s
  | again body least most eager, s =>
    (roundWays (ways bound body) least s).flatMap
      (moreWays (ways bound body) eager ((most.map (· - least)).getD bound))
  | group index body, s => (ways bound body s).map (·.since index s)
  | same index, s => (s.captures.lookup index).toList.flatMap fun c => (s.skip? c.text).toList
  | ahead body, s => (ways bound body s).head?.toList.map fun t => { s with captures := t.captures }
  | notAhead body, s => if (ways bound body s).isEmpty then [s] else []
  | edge holds, s => if holds s.cursor.before s.cursor.rest.head? then [s] else []

theorem findSome?_flatMap {α : Type} (f : α → List State) (l : List α) :
    (l.flatMap f).findSome? next = l.findSome? fun a => (f a).findSome? next := by
  induction l with
  | nil => rfl
  | cons a l ih =>
    rw [flatMap_cons, findSome?_append, ih, findSome?_cons]
    cases (f a).findSome? next <;> rfl

theorem findSome?_toList (o : Option State) : o.toList.findSome? next = o.bind next := by
  cases o with
  | none => rfl
  | some s => exact findSome?_singleton

theorem findSome?_some (l : List State) : l.findSome? some = l.head? := by
  cases l <;> rfl

/-- `spanReluctant` tries the same places as an eager repetition, the nearest first. -/
theorem spanReluctant_eq (most : Option Nat) :
    spanReluctant accepts next most s.cursor.before s.cursor.position s.captures s.cursor.rest =
      (stretchWays accepts most s).reverse.findSome? next := by
  unfold stretchWays
  induction hrest : s.cursor.rest generalizing s most with
  | nil =>
    rw [spanReluctant, spanStates, reverse_singleton, findSome?_singleton]
    cases next _ <;> rfl
  | cons c rest ih =>
    have hstep := @ih (s.step c rest) (most.map (· - 1)) rfl
    rw [spanReluctant, spanStates]
    by_cases hc : (accepts c && most != some 0)
    · simp only [hc, if_true]
      rw [spanStates_append, reverse_append, reverse_singleton, singleton_append, findSome?_cons]
      cases next _ with
      | some found => rfl
      | none => exact hstep
    · simp only [hc, Bool.false_eq_true, if_false, reverse_singleton, findSome?_singleton]
      cases next _ <;> rfl

section Rounds

variable {body : (State → Option State) → State → Option State} {round : State → List State}
variable (hbody : ∀ next s, body next s = (round s).findSome? next)

include hbody

variable (count : Nat) (s : State)

theorem times_eq : times body count next s = (roundWays round count s).findSome? next := by
  induction count generalizing s with
  | zero => exact findSome?_singleton.symm
  | succ count ih =>
    have hrest : times body count next = fun t => (roundWays round count t).findSome? next :=
      funext ih
    rw [times, hbody, hrest, roundWays, findSome?_flatMap]

/-- One more round, if it moves on, and the ways behind it. -/
theorem body_eq {more : State → Option State} {waysOf : State → List State}
    (h : ∀ t, more t = (waysOf t).findSome? next) (s : State) :
    body (fun t => if s.cursor.position < t.cursor.position then more t else none) s =
      ((round s).flatMap fun t =>
        if s.cursor.position < t.cursor.position then waysOf t else []).findSome? next := by
  rw [hbody, findSome?_flatMap]
  congr 1
  funext t
  rw [h]
  split <;> rfl

theorem upToEager_eq :
    upToEager body next count s = (moreWays round true count s).findSome? next := by
  induction count generalizing s with
  | zero => exact findSome?_singleton.symm
  | succ count ih =>
    rw [upToEager, body_eq hbody ih, moreWays, if_pos rfl, findSome?_append, findSome?_singleton]
    generalize findSome? _ _ = found
    cases found <;> rfl

theorem upToReluctant_eq :
    upToReluctant body next count s = (moreWays round false count s).findSome? next := by
  induction count generalizing s with
  | zero => exact findSome?_singleton.symm
  | succ count ih =>
    rw [upToReluctant, body_eq hbody ih, moreWays, if_neg Bool.false_ne_true, findSome?_cons]
    cases next s <;> rfl

end Rounds

/-- **`advance` takes the first of the `ways` that leads on.** -/
theorem advance_eq_findSome? (bound : Nat) (p : Pattern) (next : State → Option State) (s : State) :
    advance bound p next s = (ways bound p s).findSome? next := by
  induction p generalizing next s with
  | nothing => exact findSome?_singleton.symm
  | one accepts =>
    rw [advance, ways, takeExactly]
    cases s.cursor.rest with
    | nil => rfl
    | cons c rest =>
      by_cases hc : accepts c
      · simp only [hc, if_true, takeExactly]
        exact findSome?_singleton.symm
      · simp [hc]
  | span accepts least most eager =>
    rw [advance, ways, findSome?_flatMap]
    cases takeExactly accepts least s with
    | none => rfl
    | some t =>
      rw [Option.toList_some, findSome?_singleton]
      cases eager with
      | true => rfl
      | false => exact spanReluctant_eq _
  | both first second ihfirst ihsecond =>
    have hsecond : advance bound second next = fun t => (ways bound second t).findSome? next :=
      funext (ihsecond next)
    rw [advance, ihfirst, hsecond, ways, findSome?_flatMap]
  | either first second ihfirst ihsecond =>
    rw [advance, ihfirst, ihsecond, ways, findSome?_append]
    cases (ways bound first s).findSome? next <;> rfl
  | again body least most eager ih =>
    -- the rounds beyond the least number, as many as the bound allows
    have hmore : (fun t => if eager then
        upToEager (advance bound body) next ((most.map (· - least)).getD bound) t
          else upToReluctant (advance bound body) next ((most.map (· - least)).getD bound) t) =
        fun t => (moreWays (ways bound body) eager
          ((most.map (· - least)).getD bound) t).findSome? next := by
      funext t
      cases eager with
      | true => exact upToEager_eq ih _ t
      | false => exact upToReluctant_eq ih _ t
    rw [advance, hmore, times_eq ih, ways, findSome?_flatMap]
  | group index body ih =>
    rw [advance_group, ih, ways, findSome?_map]
    rfl
  | same index =>
    rw [advance, ways, findSome?_flatMap]
    cases s.captures.lookup index with
    | none => rfl
    | some capture =>
      rw [Option.toList_some, findSome?_singleton, findSome?_toList]
      cases hskip : s.skip? capture.text <;> simp [hskip]
  | ahead body ih =>
    -- only the first way ahead counts: what follows cannot ask for another
    rw [advance, ih, findSome?_some, ways, findSome?_map, findSome?_toList]
    cases (ways bound body s).head? <;> rfl
  | notAhead body ih =>
    rw [advance, ih, findSome?_some, ways]
    cases ways bound body s with
    | nil => exact findSome?_singleton.symm
    | cons t others => rfl
  | edge holds =>
    rw [advance, ways]
    split
    · exact findSome?_singleton.symm
    · rfl

/-- `advance` fails exactly if none of the `ways` leads on. -/
theorem advance_eq_none_iff :
    advance bound p next s = none ↔ ∀ t ∈ ways bound p s, next t = none := by
  rw [advance_eq_findSome?, findSome?_eq_none_iff]

/-- What `advance` yields is where one of the `ways` leads. -/
theorem exists_mem_ways (h : advance bound p next s = some t) :
    ∃ u ∈ ways bound p s, next u = some t := by
  rw [advance_eq_findSome?] at h
  exact exists_of_findSome?_eq_some h

theorem mem_ways_congr (h : ∀ next, advance bound p next s = advance bound q next s) :
    t ∈ ways bound p s ↔ t ∈ ways bound q s := by
  classical
  have honly : ∀ p, t ∈ ways bound p s ↔
      ¬ advance bound p (fun u => if u = t then some u else none) s = none := by
    intro p
    rw [advance_eq_none_iff]
    simp
  rw [honly, honly, h]

/-! ## The ways of common patterns -/

theorem mem_ways_append : t ∈ ways bound (p ++ q) s ↔ ∃ u ∈ ways bound p s, t ∈ ways bound q u :=
  mem_flatMap

theorem mem_ways_opt : t ∈ ways bound (opt p) s ↔ t ∈ ways bound p s ∨ t = s := by
  rw [opt, ways, ways, mem_append, mem_singleton]

theorem mem_ways_group {index : Nat} :
    t ∈ ways bound (group index p) s ↔ ∃ u ∈ ways bound p s, u.since index s = t :=
  mem_map

theorem mem_ways_one : t ∈ ways bound (one accepts) s ↔
      ∃ c rest, s.cursor.rest = c :: rest ∧ accepts c ∧ t = s.pass [c] rest := by
  rw [ways, takeExactly]
  cases s.cursor.rest with
  | nil => simp
  | cons c rest =>
    by_cases hc : accepts c
    · simp only [hc, if_true, takeExactly, Option.toList_some, mem_singleton]
      constructor
      · intro h
        exact ⟨c, rest, rfl, hc, h⟩
      · rintro ⟨c', rest', hrest, -, rfl⟩
        cases hrest
        rfl
    · simp [hc]

theorem mem_ways_lit {text : String} : t ∈ ways bound (lit text) s ↔
      ∃ rest, s.cursor.rest = text.toList ++ rest ∧ t = s.pass text.toList rest := by
  unfold lit
  generalize text.toList = chars
  induction chars generalizing s with
  | nil =>
    rw [ofChars, ways, mem_singleton]
    constructor
    · intro h
      exact ⟨s.cursor.rest, rfl, h⟩
    · rintro ⟨rest, hrest, rfl⟩
      rw [nil_append] at hrest
      rw [← hrest]
      rfl
  | cons c chars ih =>
    -- a text is its first character and then the others
    have hcons : t ∈ ways bound (ofChars (c :: chars)) s ↔
        ∃ u ∈ ways bound (char c) s, t ∈ ways bound (ofChars chars) u := by
      cases chars with
      | nil => simp [ofChars, ways]
      | cons d chars => exact mem_ways_append
    rw [hcons]
    simp only [char, mem_ways_one, ih, beq_iff_eq]
    constructor
    · rintro ⟨_, ⟨d, rest, hrest, rfl, rfl⟩, rest', hrest', rfl⟩
      refine ⟨rest', ?_, ?_⟩
      · rw [hrest, show rest = chars ++ rest' from hrest', cons_append]
      · rw [State.pass_pass, singleton_append]
    · rintro ⟨rest, hrest, rfl⟩
      refine ⟨_, ⟨c, chars ++ rest, hrest, rfl, rfl⟩, rest, rfl, ?_⟩
      rw [State.pass_pass, singleton_append]

/-- `stretchWays` are the states after each `Stretch` of the class. -/
theorem mem_stretchWays {most : Option Nat} : t ∈ stretchWays accepts most s ↔
      ∃ taken rest, Stretch accepts s.cursor.rest taken rest ∧
        (∀ count ∈ most, taken.length ≤ count) ∧ t = s.pass taken rest := by
  unfold stretchWays
  induction hrest : s.cursor.rest generalizing s most with
  | nil =>
    rw [spanStates, ← hrest, mem_singleton]
    constructor
    · rintro rfl
      exact ⟨[], _, .nil _, fun _ _ => Nat.zero_le _, rfl⟩
    · rintro ⟨taken, rest, ⟨htaken, -⟩, -, rfl⟩
      rw [hrest] at htaken
      obtain ⟨rfl, rfl⟩ := append_eq_nil_iff.mp htaken.symm
      rw [hrest]
      rfl
  | cons c rest ih =>
    have hhere : (⟨⟨s.cursor.before, s.cursor.position, c :: rest⟩, s.captures⟩ : State) = s := by
      rw [← hrest]
    rw [spanStates, hhere]
    -- one more character may be taken, or the stretch ends here
    by_cases hc : (accepts c && most != some 0)
    · have hmore := @ih (s.step c rest) (most.map (· - 1)) rfl
      simp only [hc, if_true]
      rw [spanStates_append, mem_append, mem_singleton]
      refine (or_congr_left hmore).trans ?_
      rw [Bool.and_eq_true, bne_iff_ne] at hc
      simp only [stretch_cons_iff hc.1]
      have hcount : ∀ length, (∀ count ∈ most.map (· - 1), length ≤ count) ↔
          ∀ count ∈ most, length + 1 ≤ count := by
        cases most with
        | none => simp
        | some most =>
          have hmost : most ≠ 0 := fun h => hc.2 (congrArg some h)
          simp
          omega
      constructor
      · rintro (⟨taken, rest', hstretch, hlength, rfl⟩ | rfl)
        · exact ⟨c :: taken, rest', .inr ⟨taken, rfl, hstretch⟩, (hcount _).mp hlength,
            State.pass_pass s [c] rest taken rest'⟩
        · exact ⟨[], _, .inl ⟨rfl, rfl⟩, fun _ _ => Nat.zero_le _, hhere.symm⟩
      · rintro ⟨taken, rest', ⟨rfl, rfl⟩ | ⟨taken, rfl, hstretch⟩, hlength, rfl⟩
        · exact .inr hhere
        · exact .inl ⟨taken, rest', hstretch, (hcount _).mpr hlength,
            (State.pass_pass s [c] rest taken rest').symm⟩
    · simp only [hc, Bool.false_eq_true, if_false, mem_singleton]
      constructor
      · rintro rfl
        exact ⟨[], _, .nil _, fun _ _ => Nat.zero_le _, hhere.symm⟩
      · rintro ⟨taken, rest', hstretch, hlength, rfl⟩
        cases taken with
        | nil => rw [← show _ = rest' from hstretch.eq_append]; exact hhere
        | cons d taken =>
          obtain ⟨rfl, -⟩ := cons.inj hstretch.eq_append
          rw [hstretch.accepted c mem_cons_self, Bool.true_and, bne_iff_ne, not_not] at hc
          exact absurd (hlength 0 hc) (by simp)

/-- The ways of `many` are the stretches of its class. -/
theorem mem_ways_many : t ∈ ways bound (many accepts) s ↔
      ∃ taken rest, Stretch accepts s.cursor.rest taken rest ∧ t = s.pass taken rest := by
  have hways : ways bound (many accepts) s = stretchWays accepts none s := append_nil _
  simp [hways, mem_stretchWays]

/-- `many1` is one character and `many`. -/
theorem ways_many1 : ways bound (many1 accepts) s = ways bound (one accepts ++ many accepts) s :=
  flatMap_congr fun _ _ => (append_nil _).symm

theorem mem_ways_many1 : t ∈ ways bound (many1 accepts) s ↔
      ∃ taken rest, taken ≠ [] ∧ Stretch accepts s.cursor.rest taken rest ∧
        t = s.pass taken rest := by
  rw [ways_many1, mem_ways_append]
  simp only [mem_ways_one, mem_ways_many]
  constructor
  · rintro ⟨_, ⟨c, rest, hrest, hc, rfl⟩, taken, rest', hstretch, rfl⟩
    refine ⟨c :: taken, rest', cons_ne_nil _ _, ?_, ?_⟩
    · rw [hrest]
      exact hstretch.cons hc
    · rw [State.pass_pass, singleton_append]
  · rintro ⟨taken, rest, hne, ⟨happend, haccepted⟩, rfl⟩
    obtain ⟨c, taken, rfl⟩ := exists_cons_of_ne_nil hne
    refine ⟨_, ⟨c, taken ++ rest, happend, haccepted c mem_cons_self, rfl⟩, taken, rest,
      ⟨rfl, fun d hd => haccepted d (mem_cons_of_mem _ hd)⟩, ?_⟩
    rw [State.pass_pass, singleton_append]

/-- Whether a `span` is eager matters for the order of its ways alone. -/
theorem mem_ways_reluctant {least : Nat} {most : Option Nat} :
    t ∈ ways bound (span accepts least most false) s ↔
      t ∈ ways bound (span accepts least most true) s := by
  rw [ways, ways]
  simp

theorem mem_ways_fewest : t ∈ ways bound (fewest accepts) s ↔
      ∃ taken rest, Stretch accepts s.cursor.rest taken rest ∧ t = s.pass taken rest :=
  mem_ways_reluctant.trans mem_ways_many

theorem mem_ways_edge {holds : Option Char → Option Char → Bool} :
    t ∈ ways bound (edge holds) s ↔ holds s.cursor.before s.cursor.rest.head? ∧ t = s := by
  rw [ways]
  split <;> simp_all

theorem mem_ways_oneOf {ps : List Pattern} :
    t ∈ ways bound (oneOf ps) s ↔ ∃ p ∈ ps, t ∈ ways bound p s := by
  induction ps with
  | nil =>
    rw [oneOf, mem_ways_one]
    simp
  | cons p ps ih =>
    cases ps with
    | nil => simp [oneOf]
    | cons q ps =>
      rw [oneOf, ways, mem_append, ih]
      · simp
      · simp

theorem mem_ways_anyOf {texts : List String} : t ∈ ways bound (anyOf texts) s ↔
      ∃ w ∈ texts, ∃ rest, s.cursor.rest = w.toList ++ rest ∧ t = s.pass w.toList rest := by
  rw [anyOf, mem_ways_oneOf]
  simp only [mem_map, exists_exists_and_eq_and, mem_ways_lit]

theorem self_mem_moreWays (round : State → List State) (eager : Bool) (count : Nat) (s : State) :
    s ∈ moreWays round eager count s := by
  cases count with
  | zero => exact mem_singleton_self s
  | succ count =>
    rw [moreWays]
    cases eager <;> simp

theorem mem_moreWays {round : State → List State} {eager : Bool} {count : Nat}
    (h : t ∈ moreWays round eager (count + 1) s) :
    t = s ∨ ∃ u ∈ round s, t ∈ moreWays round eager count u := by
  have hcases : t = s ∨ t ∈ (round s).flatMap fun u =>
      if s.cursor.position < u.cursor.position then moreWays round eager count u else [] := by
    rw [moreWays] at h
    cases eager with
    | true => simpa [or_comm] using h
    | false => simpa using h
  refine hcases.imp_right fun hmem => ?_
  obtain ⟨u, hu, htu⟩ := mem_flatMap.mp hmem
  split at htu
  · exact ⟨u, hu, htu⟩
  · cases htu

/-- `moreWays` are the ways of some number of rounds. -/
theorem exists_mem_roundWays {round : State → List State} {eager : Bool} {count : Nat}
    (h : t ∈ moreWays round eager count s) : ∃ n, t ∈ roundWays round n s := by
  induction count generalizing s with
  | zero => exact ⟨0, h⟩
  | succ count ih =>
    rcases mem_moreWays h with rfl | ⟨u, hu, ht⟩
    · exact ⟨0, mem_singleton_self _⟩
    · obtain ⟨n, hn⟩ := ih ht
      exact ⟨n + 1, mem_flatMap.mpr ⟨u, hu, hn⟩⟩

/-- One round of `again`, and perhaps more. -/
theorem mem_ways_again1 {eager : Bool} : t ∈ ways bound (again p 1 none eager) s ↔
      ∃ u ∈ ways bound p s, t ∈ moreWays (ways bound p) eager bound u := by
  rw [ways, mem_flatMap]
  simp only [roundWays, mem_flatMap, mem_singleton, exists_eq_right', Option.map_none,
    Option.getD_none]

end CodeAtlas.Pattern
