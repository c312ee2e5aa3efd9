import CodeAtlas.Proofs.Ways

/-!
# What patterns spell

Every way of a pattern takes a text, and its groups remember parts of it. Both can be read off the
pattern, whatever stands around the text: `Spells` says which texts a pattern can take and what its
groups then remember, and every way is of this kind (`spells_of_mem_ways`). Of the text itself two
things are known at once, its characters and the first of them (`allows`).
-/

open List

namespace CodeAtlas.Pattern

open Cursor

variable {p q : Pattern} {bound : Nat} {s t : State} {next : State → Option State}
variable {accepts : Char → Bool} {taken : List Char} {groups : List (Nat × List Char)}
variable {taken : List Char}
variable {taken' : List Char}

/-! ## States further on -/

/-- A state further on in the same text, and what stands between. -/
def State.Reaches (s u : State) (taken : List Char) : Prop :=
  ∃ rest, s.cursor.rest = taken ++ rest ∧ u.cursor = s.cursor.pass taken rest

theorem State.Reaches.here (s : State) : s.Reaches s [] :=
  ⟨s.cursor.rest, rfl, rfl⟩

theorem State.Reaches.of_cursor {u v : State} (h : s.Reaches u taken)
    (hcursor : v.cursor = u.cursor) : s.Reaches v taken := by
  obtain ⟨rest, hrest, hu⟩ := h
  exact ⟨rest, hrest, hcursor.trans hu⟩

theorem State.Reaches.trans {u v : State} (h : s.Reaches u taken) (h' : u.Reaches v taken') :
    s.Reaches v (taken ++ taken') := by
  obtain ⟨rest, hrest, hu⟩ := h
  obtain ⟨rest', hrest', hv⟩ := h'
  rw [hu] at hrest' hv
  have hsplit : rest = taken' ++ rest' := hrest'
  refine ⟨rest', ?_, ?_⟩
  · rw [hrest, hsplit, append_assoc]
  · rw [hv, Cursor.pass_pass]

theorem State.Reaches.cursor_eq {u : State} {rest : List Char} (h : s.Reaches u taken)
    (hrest : s.cursor.rest = taken ++ rest) : u.cursor = s.cursor.pass taken rest := by
  obtain ⟨rest', hrest', hu⟩ := h
  rw [hu, append_cancel_left (hrest'.symm.trans hrest)]

theorem State.Reaches.pass {rest : List Char} (h : s.cursor.rest = taken ++ rest) :
    s.Reaches (s.pass taken rest) taken :=
  ⟨rest, h, rfl⟩

theorem reaches_of_takeExactly {count : Nat} (h : takeExactly accepts count s = some t) :
    ∃ taken rest, Stretch accepts s.cursor.rest taken rest ∧ taken.length = count ∧
      t = s.pass taken rest := by
  induction count generalizing s with
  | zero =>
    obtain rfl : s = t := Option.some.inj h
    exact ⟨[], _, .nil _, rfl, rfl⟩
  | succ count ih =>
    rw [takeExactly] at h
    split at h
    · cases h
    · rename_i c rest hrest
      split at h
      · rename_i hc
        obtain ⟨taken, rest', hstretch, hlength, rfl⟩ := ih h
        refine ⟨c :: taken, rest', ?_, congrArg (· + 1) hlength, State.pass_pass s [c] rest _ _⟩
        rw [hrest]
        exact hstretch.cons hc
      · cases h

variable {text : List Char} {c : Cursor} {m : Match}

theorem reaches_of_skip? (h : s.skip? text = some t) :
    ∃ taken, s.Reaches t taken ∧ t.captures = s.captures := by
  induction text generalizing s with
  | nil =>
    obtain rfl : s = t := Option.some.inj h
    exact ⟨[], .here s, rfl⟩
  | cons c text ih =>
    rw [State.skip?] at h
    split at h
    · cases h
    · rename_i d rest hrest
      split at h
      · obtain ⟨taken, hreach, hsame⟩ := ih h
        exact ⟨d :: taken, (@State.Reaches.pass s [d] rest hrest).trans hreach, hsame⟩
      · cases h

/-! ## Groups -/

def State.group? (s : State) (index : Nat) : Option (List Char) :=
  (s.captures.lookup index).map Capture.text

/-- `since` remembers what was passed since the group began. -/
theorem State.Reaches.group?_since (h : s.Reaches t taken) (index : Nat) :
    (t.since index s).group? index = some taken := by
  obtain ⟨rest, hrest, hcursor⟩ := h
  simp [State.group?, State.since, Capture.text, hrest, hcursor, Cursor.pass]

theorem State.group?_since_of_ne {index other : Nat} (h : other ≠ index) :
    (t.since index s).group? other = t.group? other := by
  have hne : (other == index) = false := beq_eq_false_iff_ne.mpr h
  simp [State.group?, State.since, lookup_cons, hne]

/-- A state `Reaches` another, whose groups remember the texts listed, the latest first. -/
structure State.Goes (s t : State) (taken : List Char) (groups : List (Nat × List Char)) : Prop where
  reaches : s.Reaches t taken
  group?_eq : ∀ index, t.group? index = (groups.lookup index).or (s.group? index)

namespace State.Goes

variable {u : State} {taken' : List Char} {groups' : List (Nat × List Char)}

theorem of_captures (h : s.Reaches t taken) (hsame : t.captures = s.captures) :
    s.Goes t taken [] := by
  refine ⟨h, fun index => ?_⟩
  rw [State.group?, hsame]
  rfl

theorem here (s : State) : s.Goes s [] [] :=
  .of_captures (.here s) rfl

theorem pass {rest : List Char} (h : s.cursor.rest = taken ++ rest) :
    s.Goes (s.pass taken rest) taken [] :=
  .of_captures (.pass h) rfl

theorem trans (h : s.Goes t taken groups) (h' : t.Goes u taken' groups') :
    s.Goes u (taken ++ taken') (groups' ++ groups) := by
  refine ⟨h.reaches.trans h'.reaches, fun index => ?_⟩
  rw [h'.group?_eq, h.group?_eq, lookup_append, Option.or_assoc]

theorem after_pass {rest : List Char} (h : (s.pass taken rest).Goes t taken' groups)
    (hrest : s.cursor.rest = taken ++ rest) : s.Goes t (taken ++ taken') groups := by
  have hgoes := (pass hrest).trans h
  rwa [append_nil] at hgoes

theorem since (h : s.Goes t taken groups) (index : Nat) :
    s.Goes (t.since index s) taken ((index, taken) :: groups) := by
  refine ⟨h.reaches.of_cursor rfl, fun other => ?_⟩
  by_cases hother : other = index
  · rw [hother, h.reaches.group?_since, lookup_cons_self]
    rfl
  · rw [State.group?_since_of_ne hother, h.group?_eq, lookup_cons, beq_eq_false_iff_ne.mpr hother]

end State.Goes

/-! ## Spelling -/

/-- A pattern can take a text, and its groups then remember the texts listed, the latest first. -/
def Spells : Pattern → List Char → List (Nat × List Char) → Prop
  | nothing, taken, groups | notAhead _, taken, groups | edge _, taken, groups =>
    taken = [] ∧ groups = []
  | one accepts, taken, groups => ∃ c, accepts c = true ∧ taken = [c] ∧ groups = []
  | span accepts least _ _, taken, groups =>
    (∀ c ∈ taken, accepts c = true) ∧ least ≤ taken.length ∧ groups = []
  | both first second, taken, groups =>
    ∃ a g, first.Spells a g ∧ ∃ b h, second.Spells b h ∧ taken = a ++ b ∧ groups = h ++ g
  | either first second, taken, groups => first.Spells taken groups ∨ second.Spells taken groups
  | again body least _ _, taken, groups =>
    ∃ rounds : List (List Char × List (Nat × List Char)),
      (∀ round ∈ rounds, body.Spells round.1 round.2) ∧ least ≤ rounds.length ∧
        taken = rounds.flatMap Prod.fst ∧ groups = rounds.reverse.flatMap Prod.snd
  | group index body, taken, groups => ∃ g, body.Spells taken g ∧ groups = (index, taken) :: g
  | same _, _, groups => groups = []
  | ahead body, taken, groups => taken = [] ∧ ∃ text, body.Spells text groups

section Rounds

variable {round : State → List State} {spells : List Char → List (Nat × List Char) → Prop}
variable {count : Nat}
variable (hround : ∀ {s t}, t ∈ round s → ∃ taken groups, spells taken groups ∧ s.Goes t taken groups)

include hround

theorem goes_of_mem_roundWays (h : t ∈ roundWays round count s) :
    ∃ rounds : List (List Char × List (Nat × List Char)), rounds.length = count ∧
      (∀ round ∈ rounds, spells round.1 round.2) ∧
        s.Goes t (rounds.flatMap Prod.fst) (rounds.reverse.flatMap Prod.snd) := by
  induction count generalizing s with
  | zero =>
    obtain rfl := mem_singleton.mp h
    exact ⟨[], rfl, by simp, .here t⟩
  | succ count ih =>
    obtain ⟨u, hu, ht⟩ := mem_flatMap.mp h
    obtain ⟨taken, groups, hspells, hgoes⟩ := hround hu
    obtain ⟨rounds, hlength, hrounds, hmore⟩ := ih ht
    refine ⟨(taken, groups) :: rounds, congrArg (· + 1) hlength,
      forall_mem_cons.mpr ⟨hspells, hrounds⟩, ?_⟩
    simpa using hgoes.trans hmore

end Rounds

/-- **Every way leads on in the same text**, over what its pattern `Spells`. -/
theorem spells_of_mem_ways (h : t ∈ ways bound p s) :
    ∃ taken groups, p.Spells taken groups ∧ s.Goes t taken groups := by
  -- one case for each constructor, as `Spells` and `ways` have
  induction p generalizing s t with
  | nothing =>
    obtain rfl := mem_singleton.mp h
    exact ⟨[], [], ⟨rfl, rfl⟩, .here t⟩
  | one accepts =>
    obtain ⟨c, rest, hrest, hc, rfl⟩ := mem_ways_one.mp h
    exact ⟨[c], [], ⟨c, hc, rfl, rfl⟩, .pass hrest⟩
  | span accepts least most eager =>
    obtain ⟨u, hu, ht⟩ := mem_flatMap.mp h
    have ht : t ∈ stretchWays accepts (most.map (· - least)) u := by cases eager <;> simpa using ht
    obtain ⟨taken, rest, hstretch, rfl, rfl⟩ := reaches_of_takeExactly (Option.mem_toList.mp hu)
    obtain ⟨taken', rest', hstretch', -, rfl⟩ := mem_stretchWays.mp ht
    exact ⟨taken ++ taken', [], ⟨forall_mem_append.mpr ⟨hstretch.accepted, hstretch'.accepted⟩,
      by simp, rfl⟩, (State.Goes.pass hstretch.eq_append).trans (.pass hstretch'.eq_append)⟩
  | both first second ihfirst ihsecond =>
    obtain ⟨u, hu, ht⟩ := mem_flatMap.mp h
    obtain ⟨a, g, hfirst, hgoes⟩ := ihfirst hu
    obtain ⟨b, h, hsecond, hgoes'⟩ := ihsecond ht
    exact ⟨_, _, ⟨a, g, hfirst, b, h, hsecond, rfl, rfl⟩, hgoes.trans hgoes'⟩
  | either first second ihfirst ihsecond =>
    rcases mem_append.mp h with h | h
    · obtain ⟨taken, groups, hspells, hgoes⟩ := ihfirst h
      exact ⟨taken, groups, .inl hspells, hgoes⟩
    · obtain ⟨taken, groups, hspells, hgoes⟩ := ihsecond h
      exact ⟨taken, groups, .inr hspells, hgoes⟩
  | again body least most eager ih =>
    obtain ⟨u, hu, ht⟩ := mem_flatMap.mp h
    obtain ⟨rounds, rfl, hrounds, hgoes⟩ := goes_of_mem_roundWays ih hu
    obtain ⟨count, ht⟩ := exists_mem_roundWays ht
    obtain ⟨rounds', -, hrounds', hgoes'⟩ := goes_of_mem_roundWays ih ht
    refine ⟨_, _, ⟨rounds ++ rounds', forall_mem_append.mpr ⟨hrounds, hrounds'⟩, by simp,
      rfl, rfl⟩, ?_⟩
    simpa using hgoes.trans hgoes'
  | group index body ih =>
    obtain ⟨u, hu, rfl⟩ := mem_map.mp h
    obtain ⟨taken, groups, hspells, hgoes⟩ := ih hu
    exact ⟨taken, _, ⟨groups, hspells, rfl⟩, hgoes.since index⟩
  | same index =>
    obtain ⟨c, -, ht⟩ := mem_flatMap.mp h
    obtain ⟨taken, hreach, hsame⟩ := reaches_of_skip? (Option.mem_toList.mp ht)
    exact ⟨taken, [], rfl, .of_captures hreach hsame⟩
  | ahead body ih =>
    obtain ⟨u, hu, rfl⟩ := mem_map.mp h
    obtain ⟨text, groups, hspells, hgoes⟩ := ih (mem_of_mem_head? (Option.mem_toList.mp hu))
    exact ⟨[], groups, ⟨rfl, text, hspells⟩, (State.Reaches.here s).of_cursor rfl, hgoes.group?_eq⟩
  | notAhead body _ =>
    rw [ways] at h
    split at h
    · obtain rfl := mem_singleton.mp h
      exact ⟨[], [], ⟨rfl, rfl⟩, .here t⟩
    · cases h
  | edge holds =>
    obtain ⟨-, rfl⟩ := mem_ways_edge.mp h
    exact ⟨[], [], ⟨rfl, rfl⟩, .here t⟩

/-! ## Spelling by parts -/

@[simp] theorem spells_append : (p ++ q).Spells taken groups ↔
    ∃ a g, p.Spells a g ∧ ∃ b h, q.Spells b h ∧ taken = a ++ b ∧ groups = h ++ g := Iff.rfl

@[simp] theorem spells_opt :
    (opt p).Spells taken groups ↔ p.Spells taken groups ∨ taken = [] ∧ groups = [] := Iff.rfl

@[simp] theorem spells_group {index : Nat} : (group index p).Spells taken groups ↔
    ∃ g, p.Spells taken g ∧ groups = (index, taken) :: g := Iff.rfl

@[simp] theorem spells_lit {text : String} :
    (lit text).Spells taken groups ↔ taken = text.toList ∧ groups = [] := by
  unfold lit
  generalize text.toList = chars
  induction chars generalizing taken groups with
  | nil => exact Iff.rfl
  | cons c chars ih =>
    cases chars with
    | nil => simp [ofChars, char, Spells]
    | cons d chars => simp [ofChars, char, Spells, ih, and_comm]

@[simp] theorem spells_many : (many accepts).Spells taken groups ↔
    (∀ c ∈ taken, accepts c) ∧ groups = [] := by
  simp [many, Spells]

@[simp] theorem spells_many1 : (many1 accepts).Spells taken groups ↔
    (taken ≠ [] ∧ ∀ c ∈ taken, accepts c) ∧ groups = [] := by
  rw [many1, Spells, Nat.one_le_iff_ne_zero, Ne, length_eq_zero_iff, and_left_comm, and_assoc]

@[simp] theorem spells_blanks : blanks.Spells taken groups ↔
    (∀ c ∈ taken, Text.isBlank c) ∧ groups = [] := spells_many

@[simp] theorem spells_blanks1 : blanks1.Spells taken groups ↔
    (taken ≠ [] ∧ ∀ c ∈ taken, Text.isBlank c) ∧ groups = [] := spells_many1

theorem spells_oneOf {ps : List Pattern} :
    (oneOf ps).Spells taken groups ↔ ∃ p ∈ ps, p.Spells taken groups := by
  induction ps with
  | nil => simp [oneOf, Spells]
  | cons p ps ih =>
    cases ps with
    | nil => simp [oneOf]
    | cons q ps =>
      rw [oneOf, Spells, ih]
      · simp
      · simp

@[simp] theorem spells_anyOf {texts : List String} : (anyOf texts).Spells taken groups ↔
    (∃ w ∈ texts, taken = w.toList) ∧ groups = [] := by
  rw [anyOf, spells_oneOf]
  simp [← and_assoc]

/-! ## What a match takes -/

/-- Whether a pattern may match the empty text. -/
def skips : Pattern → Bool
  | nothing | same _ | ahead _ | notAhead _ | edge _ => true
  | one _ => false
  | span _ least _ _ => least == 0
  | both first second => first.skips && second.skips
  | either first second => first.skips || second.skips
  | again body least _ _ => least == 0 || body.skips
  | group _ body => body.skips

/-- Whether a pattern may take the next character; at the end of a text there is none. -/
def takes (o : Option Char) : Pattern → Bool
  | nothing | ahead _ | notAhead _ | edge _ => false
  | same _ => true
  | one accepts | span accepts _ _ _ => o.any accepts
  | both first second => first.takes o || first.skips && second.takes o
  | either first second => first.takes o || second.takes o
  | again body _ _ _ => body.takes o
  | group _ body => body.takes o

/-- Whether a pattern may take a character anywhere. -/
def holds (x : Char) : Pattern → Bool
  | nothing | ahead _ | notAhead _ | edge _ => false
  | same _ => true
  | one accepts | span accepts _ _ _ => accepts x
  | both first second | either first second => first.holds x || second.holds x
  | again body _ _ _ | group _ body => body.holds x

/-- Whether a pattern may take a text, as far as its characters and the first of them tell. -/
def allows (p : Pattern) (taken : List Char) : Bool :=
  taken.all p.holds &&
    match taken with
    | [] => p.skips
    | c :: _ => p.takes (some c)

theorem allows_stretch {accepts : Char → Bool} (h : ∀ c ∈ taken, accepts c) (least : Nat)
    (hleast : taken = [] → least = 0) (most : Option Nat) (eager : Bool) :
    (span accepts least most eager).allows taken := by
  cases taken with
  | nil => simp [allows, skips, hleast]
  | cons c taken => simp_all [allows, takes, holds]

theorem allows_both (h : p.allows taken) (h' : q.allows taken') :
    (both p q).allows (taken ++ taken') := by
  cases taken <;> cases taken' <;> grind [allows, skips, takes, holds]

theorem allows_again {least : Nat} {most : Option Nat} {eager : Bool} (h : p.allows taken)
    (h' : taken' = [] ∨ (again p least most eager).allows taken') :
    (again p least most eager).allows (taken ++ taken') := by
  cases taken <;> cases taken' <;> grind [allows, skips, takes, holds]

/-- What a pattern `Spells` it `allows`. -/
theorem allows_of_spells (h : p.Spells taken groups) : p.allows taken := by
  induction p generalizing taken groups with
  | nothing | notAhead _ _ | edge _ | ahead _ _ =>
    obtain ⟨rfl, -⟩ := h
    rfl
  | one accepts =>
    obtain ⟨c, hc, rfl, -⟩ := h
    simp [allows, takes, holds, hc]
  | span accepts least most eager =>
    obtain ⟨htaken, hleast, -⟩ := h
    exact allows_stretch htaken least (fun hnil => by simpa [hnil] using hleast) most eager
  | both first second ihfirst ihsecond =>
    obtain ⟨a, g, hfirst, b, h, hsecond, rfl, -⟩ := h
    exact allows_both (ihfirst hfirst) (ihsecond hsecond)
  | either first second ihfirst ihsecond =>
    rcases h with h | h
    · have hallows := ihfirst h
      cases taken <;> grind [allows, skips, takes, holds]
    · have hallows := ihsecond h
      cases taken <;> grind [allows, skips, takes, holds]
  | again body least most eager ih =>
    obtain ⟨rounds, hrounds, hleast, rfl, -⟩ := h
    cases rounds with
    | nil => simp [allows, skips, Nat.le_zero.mp hleast]
    | cons round rounds =>
      have hall := forall_mem_cons.mp hrounds
      refine allows_again (ih hall.1) ?_
      -- the rounds after the first may be none
      clear hrounds hleast
      obtain ⟨-, hall⟩ := hall
      induction rounds with
      | nil => exact .inl rfl
      | cons round rounds ihrounds =>
        have hall := forall_mem_cons.mp hall
        exact .inr (allows_again (ih hall.1) (ihrounds hall.2))
  | group index body ih =>
    obtain ⟨g, hspells, -⟩ := h
    have hallows := ih hspells
    cases taken <;> exact hallows
  | same index => cases taken <;> simp [allows, skips, takes, holds]

theorem reaches_of_mem_ways (h : t ∈ ways bound p s) :
    ∃ taken, s.Reaches t taken ∧ p.allows taken := by
  obtain ⟨taken, groups, hspells, hgoes⟩ := spells_of_mem_ways h
  exact ⟨taken, hgoes.reaches, allows_of_spells hspells⟩

theorem reaches_of_advance (h : advance bound p next s = some t) :
    ∃ u taken, s.Reaches u taken ∧ next u = some t ∧ p.allows taken := by
  obtain ⟨u, hu, hnext⟩ := exists_mem_ways h
  obtain ⟨taken, hreach, hallows⟩ := reaches_of_mem_ways hu
  exact ⟨u, taken, hreach, hnext, hallows⟩

theorem ne_nil_of_allows (hskips : p.skips = false) (h : p.allows taken) : taken ≠ [] := by
  rintro rfl
  simp [allows, hskips] at h

theorem not_mem_of_allows {x : Char} (hx : p.holds x = false) (h : p.allows taken) : x ∉ taken := by
  rw [allows.eq_def, Bool.and_eq_true, all_eq_true] at h
  intro hmem
  rw [h.1 x hmem] at hx
  cases hx

/-! ## Matches -/

/-- A match that begins at a place and ends where a way from there ends. -/
def Match.ofWay (c : Cursor) (t : State) : Match :=
  ⟨c.position, t.cursor.position, c.rest, t.captures⟩

theorem Match.group_ofWay (c : Cursor) (t : State) (index : Nat) :
    (Match.ofWay c t).group index = (t.group? index).getD [] := rfl

theorem Match.text_ofWay {captures : List (Nat × Capture)}
    (h : State.Reaches ⟨c, captures⟩ t taken) : (Match.ofWay c t).text = taken := by
  obtain ⟨rest, hrest, hcursor⟩ := h
  have hrest : c.rest = taken ++ rest := hrest
  have hlength : t.cursor.position - c.position = taken.length := by
    rw [hcursor]
    exact Nat.add_sub_cancel_left ..
  show c.rest.take (t.cursor.position - c.position) = taken
  rw [hlength, hrest, take_left]

theorem exists_way_of_matchAt? {nonEmpty : Bool} (h : matchAt? p bound nonEmpty c = some m) :
    ∃ t ∈ ways bound p ⟨c, []⟩, m = .ofWay c t := by
  rw [matchAt?, Option.map_eq_some_iff] at h
  obtain ⟨t, hadvance, rfl⟩ := h
  obtain ⟨u, hu, hnext⟩ := exists_mem_ways hadvance
  split at hnext
  · cases hnext
  · cases hnext
    exact ⟨t, hu, rfl⟩

theorem exists_way_of_mem_matchesAt (h : m ∈ matchesAt p bound c) :
    ∃ t ∈ ways bound p ⟨c, []⟩, m = .ofWay c t := by
  rw [matchesAt] at h
  split at h
  · cases h
  · rename_i first hfirst
    split at h
    · split at h
      · obtain rfl := mem_singleton.mp h
        exact exists_way_of_matchAt? hfirst
      · rename_i second hsecond
        simp only [mem_cons, not_mem_nil, or_false] at h
        rcases h with rfl | rfl
        · exact exists_way_of_matchAt? hfirst
        · exact exists_way_of_matchAt? hsecond
    · obtain rfl := mem_singleton.mp h
      exact exists_way_of_matchAt? hfirst

/-- What `findFrom` finds is found at this place or from the next on. -/
theorem mem_findFrom {resume : Nat} (h : m ∈ findFrom p bound resume c.before c.position c.rest) :
    m ∈ matchesAt p bound c ∨ ∃ d rest resume', c.rest = d :: rest ∧
      m ∈ findFrom p bound resume' (some d) (c.position + 1) rest := by
  have hhere : m ∈ (if c.position < resume then []
      else matchesAt p bound ⟨c.before, c.position, c.rest⟩) → m ∈ matchesAt p bound c := by
    intro hmem
    split at hmem
    · cases hmem
    · exact hmem
  rw [findFrom.eq_def] at h
  cases hrest : c.rest with
  | nil =>
    rw [hrest] at h hhere
    exact .inl (hhere h)
  | cons d rest =>
    rw [hrest] at h hhere
    rcases mem_append.mp h with h | h
    · exact .inl (hhere h)
    · exact .inr ⟨d, rest, _, rfl, h⟩

theorem exists_way_of_mem_findFrom {resume : Nat} {c : Cursor} {m : Match}
    (h : m ∈ findFrom p bound resume c.before c.position c.rest) :
    ∃ passed rest, c.rest = passed ++ rest ∧
      ∃ t ∈ ways bound p ⟨c.pass passed rest, []⟩, m = .ofWay (c.pass passed rest) t := by
  have hhere : ∀ {c : Cursor}, m ∈ matchesAt p bound c → ∃ passed rest, c.rest = passed ++ rest ∧
      ∃ t ∈ ways bound p ⟨c.pass passed rest, []⟩, m = .ofWay (c.pass passed rest) t :=
    fun {c} hmem => ⟨[], c.rest, rfl, exists_way_of_mem_matchesAt hmem⟩
  generalize htext : c.rest = text
  induction text generalizing c resume with
  | nil =>
    rcases mem_findFrom h with hmem | ⟨d, rest, resume', hrest, -⟩
    · rw [← htext]
      exact hhere hmem
    · rw [htext] at hrest
      cases hrest
  | cons d text ih =>
    rw [← htext]
    rcases mem_findFrom h with hmem | ⟨d', rest, resume', hrest, hfound⟩
    · exact hhere hmem
    · obtain ⟨rfl, rfl⟩ := cons.inj (htext.symm.trans hrest)
      obtain ⟨passed, rest', hsplit, t, ht, rfl⟩ := @ih resume' (c.pass [d] text) hfound rfl
      rw [pass_pass, singleton_append] at ht
      refine ⟨d :: passed, rest', ?_, t, ht, ?_⟩
      · rw [htext, hsplit, cons_append]
      · rw [pass_pass, singleton_append]

/-- Every match of `findAll` is one of the `ways` at some place of the text. -/
theorem exists_way_of_mem_findAll (h : m ∈ p.findAll text) :
    ∃ passed rest, text = passed ++ rest ∧
      ∃ t ∈ ways text.length p ⟨(start text).pass passed rest, []⟩,
        m = .ofWay ((start text).pass passed rest) t :=
  @exists_way_of_mem_findFrom _ _ _ (start text) m h

end CodeAtlas.Pattern
