import CodeAtlas.Proofs.Searching
import Mathlib.Data.Option.Basic

/-!
# Matching further on in a longer text

A pattern sees of a text what follows a place and the one character before it. So if a text stands
behind another one, matching at its places goes as in the text alone, with every position further on
(`advance_moved`). This holds at the start of the text, too, for a pattern whose edges do not tell
the start of a text from the character that now stands before it (`Blind`).

The bound on repetitions plays no part: it is never below the length of what is left, and a round
of a repetition that does not move on is not taken.
-/

open List

namespace CodeAtlas.Pattern

open Match

variable {p : Pattern}

/-! ## Moved states -/

/-- What a group remembers, further on in a longer text. -/
def Capture.move (k : Nat) (c : Capture) : Capture :=
  { c with start := c.start + k }

def moveCaptures (k : Nat) (captures : List (Nat × Capture)) : List (Nat × Capture) :=
  captures.map fun c => (c.1, c.2.move k)

theorem moveCaptures_cons (k index : Nat) (c : Capture) (captures : List (Nat × Capture)) :
    moveCaptures k ((index, c) :: captures) = (index, c.move k) :: moveCaptures k captures := rfl

theorem lookup_moveCaptures (k index : Nat) (captures : List (Nat × Capture)) :
    (moveCaptures k captures).lookup index = (captures.lookup index).map (Capture.move k) := by
  induction captures with
  | nil => rfl
  | cons c captures ih =>
    obtain ⟨i, c⟩ := c
    rw [moveCaptures_cons, lookup_cons, lookup_cons, ih]
    cases index == i <;> rfl

/-- Two states with the same text before them up to its end, one of which is `k` characters further
on. What stands before them may differ as `near` allows. -/
structure Moved (near : Option Char → Option Char → Prop) (k n : Nat) (s s' : State) : Prop where
  before : near s.cursor.before s'.cursor.before
  position : s'.cursor.position = s.cursor.position + k
  rest : s'.cursor.rest = s.cursor.rest
  captures : s'.captures = moveCaptures k s.captures
  total : s.cursor.position + s.cursor.rest.length = n

/-- The edges of a pattern do not tell near characters apart. -/
def Blind (near : Option Char → Option Char → Prop) : Pattern → Prop
  | nothing | one _ | span _ _ _ _ | same _ => True
  | both first second | either first second => Blind near first ∧ Blind near second
  | again body _ _ _ | group _ body | ahead body | notAhead body => Blind near body
  | edge holds => ∀ o o' after, near o o' → holds o after = holds o' after

section Moved

variable {near : Option Char → Option Char → Prop} {k n : Nat} {s s' : State}

/-- What has to hold afterwards goes alike in both texts. -/
def Agree (near : Option Char → Option Char → Prop) (k n : Nat)
    (next next' : State → Option State) : Prop :=
  ∀ s s', Moved near k n s s' → Option.Rel (Moved near k n) (next s) (next' s')

theorem Moved.pass (hnear : ∀ c, near (some c) (some c)) (h : Moved near k n s s') {c : Char}
    {rest : List Char} (hrest : s.cursor.rest = c :: rest) :
    Moved near k n (s.step c rest) (s'.step c rest) := by
  constructor
  · exact hnear c
  · show s'.cursor.position + 1 = s.cursor.position + 1 + k
    have := h.position
    omega
  · rfl
  · exact h.captures
  · have htotal := h.total
    rw [hrest, length_cons] at htotal
    show s.cursor.position + 1 + rest.length = n
    omega

theorem Moved.withRest (h : Moved near k n s s') {rest : List Char} (hrest : s.cursor.rest = rest) :
    Moved near k n ⟨⟨s.cursor.before, s.cursor.position, rest⟩, s.captures⟩
      ⟨⟨s'.cursor.before, s'.cursor.position, rest⟩, s'.captures⟩ :=
  ⟨h.before, h.position, rfl, h.captures, hrest ▸ h.total⟩

theorem Moved.withCaptures (h : Moved near k n s s') {t t' : State} (ht : Moved near k n t t') :
    Moved near k n { s with captures := t.captures } { s' with captures := t'.captures } :=
  ⟨h.before, h.position, h.rest, ht.captures, h.total⟩

/-- `since` remembers the same text in both. -/
theorem Moved.since (h : Moved near k n s s') {t t' : State} (ht : Moved near k n t t')
    (index : Nat) : Moved near k n (t.since index s) (t'.since index s') := by
  refine ⟨ht.before, ht.position, ht.rest, ?_, ht.total⟩
  have hsize : t'.cursor.position - s'.cursor.position =
      t.cursor.position - s.cursor.position := by
    rw [h.position, ht.position]
    omega
  show (index, (⟨s'.cursor.position, s'.cursor.rest, _⟩ : Capture)) :: t'.captures = _
  rw [ht.captures, h.rest, hsize, h.position]
  rfl

/-! ## Repetitions of a class -/

theorem takeExactly_moved (hnear : ∀ c, near (some c) (some c)) (accepts : Char → Bool)
    (count : Nat) (h : Moved near k n s s') :
    Option.Rel (Moved near k n) (takeExactly accepts count s) (takeExactly accepts count s') := by
  induction count generalizing s s' with
  | zero => exact .some h
  | succ count ih =>
    rw [takeExactly, takeExactly, h.rest]
    cases hrest : s.cursor.rest with
    | nil => exact .none
    | cons c rest =>
      by_cases hc : accepts c
      · simp only [hc, if_true]
        exact ih (h.pass hnear hrest)
      · simp only [hc]
        exact .none

theorem spanStates_moved (hnear : ∀ c, near (some c) (some c)) (accepts : Char → Bool)
    {most : Option Nat} {passed passed' : List State}
    (hpassed : Forall₂ (Moved near k n) passed passed') (h : Moved near k n s s') :
    Forall₂ (Moved near k n)
      (spanStates accepts most s.cursor.before s.cursor.position s.captures s.cursor.rest passed)
      (spanStates accepts most s'.cursor.before s'.cursor.position s'.captures s'.cursor.rest
        passed') := by
  rw [h.rest]
  induction hrest : s.cursor.rest generalizing s s' most passed passed' with
  | nil =>
    rw [spanStates, spanStates]
    exact .cons (h.withRest hrest) hpassed
  | cons c rest ih =>
    have hhere := Forall₂.cons (h.withRest hrest) hpassed
    rw [spanStates, spanStates]
    by_cases hc : (accepts c && most != some 0)
    · simp only [hc, if_true]
      exact ih hhere (h.pass hnear hrest) rfl
    · simp only [hc]
      exact hhere

theorem toList_moved {o o' : Option State} (h : Option.Rel (Moved near k n) o o') :
    Forall₂ (Moved near k n) o.toList o'.toList := by
  cases h with
  | none => exact .nil
  | some h => exact .cons h .nil

theorem skip?_moved (hnear : ∀ c, near (some c) (some c)) (text : List Char)
    (h : Moved near k n s s') : Option.Rel (Moved near k n) (s.skip? text) (s'.skip? text) := by
  induction text generalizing s s' with
  | nil => exact .some h
  | cons c text ih =>
    rw [State.skip?, State.skip?, h.rest]
    cases hrest : s.cursor.rest with
    | nil => exact .none
    | cons d rest =>
      by_cases hc : c = d
      · simp only [hc, if_true]
        exact ih (h.pass hnear hrest)
      · simp only [hc, if_false]
        exact .none

/-! ## Repetitions of a pattern -/

theorem Moved.stay (h : Moved near k n s s') (eager : Bool) {further further' : List State}
    (hfurther : Forall₂ (Moved near k n) further further') :
    Forall₂ (Moved near k n) (if eager then further ++ [s] else s :: further)
      (if eager then further' ++ [s'] else s' :: further') := by
  cases eager with
  | true => exact rel_append hfurther (.cons h .nil)
  | false => exact .cons h hfurther

section Rounds

variable {round round' : State → List State}
variable (hround : ∀ {s s'}, Moved near k n s s' →
  Forall₂ (Moved near k n) (round s) (round' s'))

include hround

theorem roundWays_moved (count : Nat) (h : Moved near k n s s') :
    Forall₂ (Moved near k n) (roundWays round count s) (roundWays round' count s') := by
  induction count generalizing s s' with
  | zero => exact .cons h .nil
  | succ count ih => exact rel_flatMap (hround h) fun _ _ ht => ih ht

/-- The further rounds are alike, if those after the first of them are. At the end of the text there
is none. -/
theorem further_moved {more more' : State → List State} (h : Moved near k n s s')
    (hmore : ∀ t t', Moved near k n t t' → t.cursor.rest.length < s.cursor.rest.length →
      Forall₂ (Moved near k n) (more t) (more' t')) : Forall₂ (Moved near k n)
      ((round s).flatMap fun t => if s.cursor.position < t.cursor.position then more t else [])
      ((round' s').flatMap fun t =>
        if s'.cursor.position < t.cursor.position then more' t else []) := by
  refine rel_flatMap (hround h) fun t t' ht => ?_
  have hposition := ht.position
  have hposition' := h.position
  have htotal := ht.total
  have htotal' := h.total
  by_cases hfar : s.cursor.position < t.cursor.position
  · rw [if_pos hfar, if_pos (by omega)]
    exact hmore t t' ht (by omega)
  · rw [if_neg hfar, if_neg (by omega)]
    exact .nil

omit hround in
/-- `moreWays` stop here or go on, unless there are none left. -/
theorem moreWays_eq (eager : Bool) (count : Nat) (s : State) : moreWays round eager count s =
      let further := (round s).flatMap fun t =>
        if s.cursor.position < t.cursor.position then
          match count with
          | 0 => []
          | count + 1 => moreWays round eager count t
        else []
      if eager then further ++ [s] else s :: further := by
  cases count with
  | zero => cases eager <;> simp [moreWays]
  | succ count => rfl

/-- How often a repetition may go round: as often in both texts, or at least as often as there are
characters left. -/
theorem moreWays_moved (eager : Bool) {count count' : Nat} (h : Moved near k n s s')
    (hcount : count = count' ∨ s.cursor.rest.length ≤ count ∧ s.cursor.rest.length ≤ count') :
    Forall₂ (Moved near k n) (moreWays round eager count s)
      (moreWays round' eager count' s') := by
  induction count generalizing count' s s' with
  | zero =>
    rw [moreWays_eq, moreWays_eq]
    refine h.stay eager (further_moved hround h fun t t' ht hshort => ?_)
    cases count' with
    | zero => exact .nil
    | succ count' => omega
  | succ count ih =>
    rw [moreWays_eq, moreWays_eq]
    refine h.stay eager (further_moved hround h fun t t' ht hshort => ?_)
    cases count' with
    | zero => omega
    | succ count' => exact ih ht (by omega)

end Rounds

/-! ## The whole match -/

/-- **The `ways` are alike further on.** -/
theorem ways_moved {b b' : Nat} (hnear : ∀ c, near (some c) (some c)) (hb : n ≤ b) (hb' : n ≤ b')
    (hp : Blind near p) (h : Moved near k n s s') :
    Forall₂ (Moved near k n) (ways b p s) (ways b' p s') := by
  induction p generalizing s s' with
  | nothing => exact .cons h .nil
  | one accepts => exact toList_moved (takeExactly_moved hnear accepts 1 h)
  | span accepts least most eager =>
    refine rel_flatMap (toList_moved (takeExactly_moved hnear accepts least h))
      fun t t' ht => ?_
    have hstretch : Forall₂ (Moved near k n) (stretchWays accepts (most.map (· - least)) t)
        (stretchWays accepts (most.map (· - least)) t') := spanStates_moved hnear accepts .nil ht
    cases eager with
    | true => exact hstretch
    | false => exact rel_reverse hstretch
  | both first second ihfirst ihsecond =>
    exact rel_flatMap (ihfirst hp.1 h) fun _ _ ht => ihsecond hp.2 ht
  | either first second ihfirst ihsecond =>
    exact rel_append (ihfirst hp.1 h) (ihsecond hp.2 h)
  | again body least most eager ih =>
    refine rel_flatMap (roundWays_moved (ih hp) least h) fun t t' ht => ?_
    refine moreWays_moved (ih hp) eager ht ?_
    -- a repetition without a limit may go round as often as there are characters
    cases most with
    | some most => exact .inl rfl
    | none =>
      have htotal := ht.total
      exact .inr ⟨show t.cursor.rest.length ≤ b by omega, show t.cursor.rest.length ≤ b' by omega⟩
  | group index body ih =>
    have hsince : ∀ t t', Moved near k n t t' →
        Moved near k n (t.since index s) (t'.since index s') := fun t t' ht => h.since ht index
    exact rel_map hsince (ih hp h)
  | same index =>
    rw [ways, ways, h.captures, lookup_moveCaptures]
    cases s.captures.lookup index with
    | none => exact .nil
    | some c =>
      have hskip := toList_moved (skip?_moved hnear c.text h)
      exact rel_append hskip .nil
  | ahead body ih =>
    have hbody := ih hp h
    rw [ways, ways]
    generalize ways b body s = l at hbody
    generalize ways b' body s' = l' at hbody
    cases hbody with
    | nil => exact .nil
    | cons ht _ => exact .cons (h.withCaptures ht) .nil
  | notAhead body ih =>
    have hbody := ih hp h
    rw [ways, ways]
    generalize ways b body s = l at hbody
    generalize ways b' body s' = l' at hbody
    cases hbody with
    | nil => exact .cons h .nil
    | cons ht _ => exact .nil
  | edge holds =>
    rw [ways, ways, h.rest, ← hp _ _ _ h.before]
    split
    · exact .cons h .nil
    · exact .nil

/-- **`advance` goes alike further on.** A match in a text behind another one is the match in the
text alone, moved, for every pattern that is `Blind` to what stands before the text. -/
theorem advance_moved {b b' : Nat} (hnear : ∀ c, near (some c) (some c)) (hb : n ≤ b) (hb' : n ≤ b')
    (hp : Blind near p) {next next' : State → Option State} (hnext : Agree near k n next next') :
    Agree near k n (advance b p next) (advance b' p next') := by
  intro s s' h
  have hways := ways_moved hnear hb hb' hp h
  rw [advance_eq_findSome?, advance_eq_findSome?]
  generalize ways b p s = l at hways ⊢
  generalize ways b' p s' = l' at hways ⊢
  induction hways with
  | nil => exact .none
  | @cons t t' _ _ ht _ ih =>
    have hhere := hnext t t' ht
    rw [findSome?_cons, findSome?_cons]
    generalize next t = r at hhere
    generalize next' t' = r' at hhere
    cases hhere with
    | some hu => exact .some hu
    | none => exact ih

end Moved

/-! ## Matches and searches -/

/-- A match as it is found further on in a longer text. -/
def Match.move (k : Nat) (m : Match) : Match :=
  ⟨m.start + k, m.stop + k, m.source, moveCaptures k m.captures⟩

variable (k : Nat) (m : Match)

@[simp] theorem Match.start_move : (m.move k).start = m.start + k := rfl

@[simp] theorem Match.stop_move : (m.move k).stop = m.stop + k := rfl

@[simp] theorem Match.source_move : (m.move k).source = m.source := rfl

theorem Match.size_move : (m.move k).stop - (m.move k).start = m.stop - m.start :=
  Nat.add_sub_add_right m.stop k m.start

@[simp] theorem Match.text_move : (m.move k).text = m.text := by
  rw [text, size_move, source_move]
  rfl

@[simp] theorem Match.group?_move (index : Nat) : (m.move k).group? index = m.group? index := by
  show ((moveCaptures k m.captures).lookup index).map Capture.text = _
  rw [lookup_moveCaptures, Option.map_map]
  rfl

@[simp] theorem Match.group_move (index : Nat) : (m.move k).group index = m.group index := by
  rw [group, group?_move]
  rfl

section Replace

variable {replace : Match → List Char} (hreplace : ∀ k m, replace (m.move k) = replace m)

include hreplace

theorem replaceFrom_move (k position : Nat) (rest : List Char) (ms : List Match) :
    replaceFrom replace (position + k) rest (ms.map (move k)) =
      replaceFrom replace position rest ms := by
  induction ms generalizing position rest with
  | nil => rfl
  | cons m ms ih =>
    rw [map_cons, replaceFrom, replaceFrom, start_move, stop_move, hreplace,
      Nat.add_sub_add_right, Nat.add_sub_add_right, ih]

/-- `replaceFrom` leaves what stands before all matches. -/
theorem replaceFrom_append (gap rest : List Char) (ms : List Match) :
    replaceFrom replace 0 (gap ++ rest) (ms.map (move gap.length)) =
      gap ++ replaceFrom replace 0 rest ms := by
  cases ms with
  | nil => rfl
  | cons m ms =>
    rw [map_cons, replaceFrom, replaceFrom, start_move, stop_move, hreplace,
      replaceFrom_move hreplace, Nat.sub_zero, Nat.sub_zero, Nat.sub_zero, Nat.sub_zero,
      Nat.add_comm, Nat.add_comm m.stop, take_length_add_append, drop_length_add_append]
    simp only [append_assoc]

end Replace

section Search

variable {near : Option Char → Option Char → Prop} {k n b b' : Nat} {p : Pattern} {c c' : Cursor}
variable (hnear : ∀ c, near (some c) (some c)) (hb : n ≤ b) (hb' : n ≤ b') (hp : Blind near p)

include hnear hb hb' hp

theorem matchAt?_moved (h : Moved near k n ⟨c, []⟩ ⟨c', []⟩) (nonEmpty : Bool) :
    matchAt? p b' nonEmpty c' = (matchAt? p b nonEmpty c).map (move k) := by
  have hposition : c'.position = c.position + k := h.position
  have hrest : c'.rest = c.rest := h.rest
  have hnext : Agree near k n
      (fun t => if nonEmpty && t.cursor.position == c.position then none else some t)
      (fun t => if nonEmpty && t.cursor.position == c'.position then none else some t) := by
    intro t t' ht
    have hsame : (t'.cursor.position == c'.position) = (t.cursor.position == c.position) := by
      rw [ht.position, hposition, Bool.eq_iff_iff, beq_iff_eq, beq_iff_eq]
      omega
    simp only [hsame]
    split
    · exact .none
    · exact .some ht
  have hrel := advance_moved hnear hb hb' hp hnext _ _ h
  unfold matchAt?
  generalize advance b p _ ⟨c, []⟩ = r at hrel
  generalize advance b' p _ ⟨c', []⟩ = r' at hrel
  cases hrel with
  | none => rfl
  | some ht =>
    rw [Option.map_some, Option.map_some, Option.map_some, ht.position, ht.captures, hposition,
      hrest]
    rfl

theorem matchesAt_moved (h : Moved near k n ⟨c, []⟩ ⟨c', []⟩) :
    matchesAt p b' c' = (matchesAt p b c).map (move k) := by
  unfold matchesAt
  rw [matchAt?_moved hnear hb hb' hp h, matchAt?_moved hnear hb hb' hp h]
  cases matchAt? p b false c with
  | none => rfl
  | some m =>
    have hempty : (m.move k).stop = (m.move k).start ↔ m.stop = m.start := by
      rw [stop_move, start_move]
      omega
    simp only [Option.map_some, hempty]
    split
    · cases matchAt? p b true c <;> rfl
    · rfl

omit hnear hb hb' hp in
theorem resumeAfter_moved (resume : Nat) (found : List Match) :
    resumeAfter (resume + k) (found.map (move k)) = resumeAfter resume found + k := by
  unfold resumeAfter
  induction found generalizing resume with
  | nil => rfl
  | cons m found ih =>
    have hmax : max (resume + k) (m.move k).stop = max resume m.stop + k := by
      rw [stop_move]
      omega
    rw [map_cons, foldl_cons, foldl_cons, hmax]
    exact ih (max resume m.stop)

theorem findFrom_moved (resume : Nat) (h : Moved near k n ⟨c, []⟩ ⟨c', []⟩) :
    findFrom p b' (resume + k) c'.before c'.position c'.rest =
      (findFrom p b resume c.before c.position c.rest).map (move k) := by
  have hrest' : c'.rest = c.rest := h.rest
  have hposition : c'.position = c.position + k := h.position
  induction hrest : c.rest generalizing c c' resume with
  | nil =>
    have hhere := matchesAt_moved hnear hb hb' hp h
    have hc : c = ⟨c.before, c.position, []⟩ := by rw [← hrest]
    have hc' : c' = ⟨c'.before, c'.position, []⟩ := by rw [← hrest, ← hrest']
    rw [hrest', hrest, findFrom, findFrom, ← hc, ← hc', hhere, hposition]
    by_cases hbefore : c.position < resume
    · simp [hbefore]
    · simp [hbefore]
  | cons d rest ih =>
    have hhere := matchesAt_moved hnear hb hb' hp h
    have hc : c = ⟨c.before, c.position, d :: rest⟩ := by rw [← hrest]
    have hc' : c' = ⟨c'.before, c'.position, d :: rest⟩ := by rw [← hrest, ← hrest']
    have hstep : Moved near k n ⟨⟨some d, c.position + 1, rest⟩, []⟩
        ⟨⟨some d, c'.position + 1, rest⟩, []⟩ := h.pass hnear hrest
    have hlater : ∀ resume, findFrom p b' (resume + k) (some d) (c'.position + 1) rest =
        (findFrom p b resume (some d) (c.position + 1) rest).map (move k) :=
      fun resume => ih resume hstep rfl hstep.position rfl
    rw [hrest', hrest, findFrom, findFrom, ← hc, ← hc', hhere]
    by_cases hbefore : c.position < resume
    · have hbefore' : c'.position < resume + k := by omega
      simp only [hbefore, hbefore', if_true, nil_append]
      exact hlater (resumeAfter resume [])
    · have hbefore' : ¬ c'.position < resume + k := by omega
      simp only [hbefore, hbefore', if_false, map_append]
      rw [resumeAfter_moved, hlater]

/-- **`searchFrom` goes alike further on.** -/
theorem searchFrom_moved (h : Moved near k n ⟨c, []⟩ ⟨c', []⟩) :
    searchFrom p b' c' = (searchFrom p b c).map (move k) := by
  have hposition : c'.position = c.position + k := h.position
  have hmoved := findFrom_moved hnear hb hb' hp c.position h
  rw [← hposition] at hmoved
  exact hmoved

end Search

/-! ## A text behind another -/

/-- What stands before a place, and what stands there once a text that ends with some character is
put before the whole. -/
def Beside (x : Char) (o o' : Option Char) : Prop :=
  o' = o ∨ o = none ∧ o' = some x

theorem Beside.refl (x : Char) (c : Char) : Beside x (some c) (some c) :=
  .inl rfl

theorem blind_eq (p : Pattern) : Blind Eq p := by
  induction p with
  | both _ _ ihfirst ihsecond | either _ _ ihfirst ihsecond => exact ⟨ihfirst, ihsecond⟩
  | again _ _ _ _ ih | group _ _ ih | ahead _ ih | notAhead _ ih => exact ih
  | edge holds =>
    intro o o' after h
    rw [h]
  | nothing | one _ | span _ _ _ _ | same _ => trivial

/-- A pattern fails at every place of a text that another text follows. -/
def PassesOver (p : Pattern) (before code : List Char) : Prop :=
  ∀ (bound : Nat) (passed : List Char) (d : Char) (between : List Char),
    before = passed ++ d :: between →
      advance bound p some
        ⟨(Cursor.start (before ++ code)).pass passed (d :: between ++ code), []⟩ = none

variable {before code : List Char} {x : Char}

theorem PassesOver.findAll (h : PassesOver p before code) :
    p.findAll (before ++ code) =
      p.searchFrom (before ++ code).length ((Cursor.start (before ++ code)).pass before code) := by
  rw [findAll_eq_searchFrom]
  refine searchFrom_skip rfl fun passed d between hsplit => ?_
  exact matchAt?_eq_none_iff.mpr (h _ passed d between hsplit)

theorem passesOver_of_refuses (h : ∀ d ∈ before, p.Refuses (some d)) (code : List Char) :
    PassesOver p before code := by
  intro bound passed d between hsplit
  refine Refuses.advance_eq_none (h d ?_)
  rw [hsplit]
  exact mem_append_right _ mem_cons_self

theorem Refuses.passesOver (h : p.Refuses (some x)) (code : List Char) :
    PassesOver p ([] ++ [x]) code :=
  passesOver_of_refuses (by simpa using h) code

/-- **`findAll` behind another text** has the matches of the text alone, if the pattern passes over
the other text and is `Blind` to its end. -/
theorem findAll_append {front : List Char} (hover : PassesOver p (front ++ [x]) code)
    (hblind : Blind (Beside x) p) :
    p.findAll (front ++ [x] ++ code) = (p.findAll code).map (move (front ++ [x]).length) := by
  rw [hover.findAll, findAll_eq_searchFrom]
  refine searchFrom_moved (Beside.refl x) (Nat.le_refl code.length) (by simp; omega) hblind ?_
  refine ⟨.inr ⟨rfl, ?_⟩, ?_, rfl, rfl, ?_⟩
  · simp [Cursor.pass]
  · simp [Cursor.pass, Cursor.start]
  · simp [Cursor.start]

/-! ## First matches -/

theorem firstFrom?_eq_head? (p : Pattern) (bound : Nat) (before : Option Char) (position : Nat)
    (rest : List Char) : p.firstFrom? bound before position rest =
      (p.findFrom bound position before position rest).head? := by
  have hmatches : ∀ c, (matchesAt p bound c).head? = matchAt? p bound false c := by
    intro c
    rw [matchesAt]
    cases matchAt? p bound false c with
    | none => rfl
    | some m =>
      simp only
      split
      · split <;> rfl
      · rfl
  induction rest generalizing before position with
  | nil =>
    rw [firstFrom?, findFrom]
    simp only [Nat.lt_irrefl, if_false, hmatches]
    cases matchAt? p bound false ⟨before, position, []⟩ <;> rfl
  | cons d rest ih =>
    rw [firstFrom?, findFrom]
    simp only [Nat.lt_irrefl, if_false]
    rw [head?_append, hmatches]
    cases hhere : matchAt? p bound false ⟨before, position, d :: rest⟩ with
    | some m => rfl
    | none =>
      have hnone : matchesAt p bound ⟨before, position, d :: rest⟩ = [] := by
        rw [matchesAt, hhere]
      rw [hnone, Option.none_or]
      show firstFrom? p bound (some d) (position + 1) rest = _
      rw [ih]
      show _ = (findFrom p bound position (some d) (position + 1) rest).head?
      rw [findFrom_of_le (Nat.le_succ position)]

theorem find?_eq_head? (p : Pattern) (text : List Char) : p.find? text = (p.findAll text).head? :=
  firstFrom?_eq_head? p text.length none 0 text

end CodeAtlas.Pattern
