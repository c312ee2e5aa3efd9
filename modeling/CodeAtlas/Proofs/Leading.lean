import CodeAtlas.Proofs.Passing

/-!
# The way that matching prefers

Matching tries the ways of a pattern in order, and the first of them is taken if what follows
matches after it. A pattern `Leads` through a text if its first way takes just this text. What the
groups remember of it belongs to the notion, so that a pattern with groups is followed part by part
(`Leads.append`) and its match is known with all its groups (`Leads.matchAt?`).
-/

open List

namespace CodeAtlas.Pattern

open Cursor

variable {p q : Pattern} {taken taken' gap rest : List Char} {accepts : Char → Bool}
variable {groups groups' : List (Nat × List Char)}
variable {word : String} {texts : List String}

/-! ## Texts that stand for themselves -/

/-- `lit` passes over a text without its first character. -/
theorem Passes.lit {d : Char} (hd : word.toList.head? = some d) (h : d ∉ gap) :
    Passes (lit word) gap rest := by
  refine fun left hleft hne => .lit ?_
  obtain ⟨c, left, rfl⟩ := exists_cons_of_ne_nil hne
  obtain ⟨word', hword⟩ := head?_eq_some_iff.mp hd
  rintro ⟨more, hmore⟩
  rw [hword] at hmore
  obtain rfl : d = c := (cons.inj hmore).1
  exact h (hleft.subset mem_cons_self)

/-- Whether a text neither stands nor begins anywhere in another. -/
def apart (word gap : List Char) : Bool :=
  gap.tails.all fun left => left.isEmpty || !(word.isPrefixOf left || left.isPrefixOf word)

theorem Passes.lit_of_apart (h : apart word.toList gap) : Passes (Pattern.lit word) gap rest := by
  intro left hleft hne
  have hleft := all_eq_true.mp h left ((mem_tails _ _).mpr hleft)
  rw [isEmpty_eq_false_iff.mpr hne, Bool.false_or, Bool.not_eq_true', Bool.or_eq_false_iff,
    Bool.eq_false_iff, Bool.eq_false_iff, Ne, Ne, isPrefixOf_iff_prefix,
    isPrefixOf_iff_prefix] at hleft
  refine .lit fun hword => ?_
  rcases prefix_or_prefix_of_prefix hword (prefix_append left rest) with h | h
  · exact hleft.1 h
  · exact hleft.2 h

theorem Passes.assoc {r : Pattern} (h : Passes (p ++ (q ++ r)) gap rest) :
    Passes (p ++ q ++ r) gap rest := h

theorem Passes.of_suffix {gap' : List Char} (h : Passes p gap rest) (hgap : gap' <:+ gap) :
    Passes p gap' rest :=
  fun left hleft hne => h left (hleft.trans hgap) hne

/-- Behind a text that is taken, what follows decides. -/
theorem FailsAt.lit_append (h : q.FailsAt rest) :
    (Pattern.lit word ++ q).FailsAt (word.toList ++ rest) := by
  intro bound next s hrest
  rw [advance_append, advance_lit hrest]
  exact h bound next _ rfl

/-- A pattern takes nothing but characters of a class. -/
def Within (p : Pattern) (accepts : Char → Bool) : Prop :=
  ∀ taken groups, p.Spells taken groups → ∀ c ∈ taken, accepts c = true

theorem Within.span {least : Nat} {most : Option Nat} {eager : Bool} :
    (span accepts least most eager).Within accepts :=
  fun _ _ h => h.1

theorem Within.group (h : p.Within accepts) (index : Nat) :
    (Pattern.group index p).Within accepts := by
  rintro taken _ ⟨groups, hspells, -⟩
  exact h taken groups hspells

/-- `q` fails behind characters of a class if it matches nowhere in a stretch and fails behind the
stretch, where the class ends. -/
theorem FailsAt.within (hp : p.Within accepts) (hgap : Passes q gap rest)
    (hstop : rest.head?.any accepts = false) (h : q.FailsAt rest) :
    (p ++ q).FailsAt (gap ++ rest) := by
  refine .of_ways fun bound s hrest t ht => ?_
  obtain ⟨u, hu, hq⟩ := mem_ways_append.mp ht
  obtain ⟨taken, groups, hspells, ⟨rest', hsplit, hcursor⟩, -⟩ := spells_of_mem_ways hu
  have hrest' : u.cursor.rest = rest' := by rw [hcursor]; rfl
  rw [hrest] at hsplit
  rcases append_eq_append_iff.mp hsplit with ⟨z, rfl, rfl⟩ | ⟨z, rfl, rfl⟩
  · cases z with
    | nil => exact h.not_mem_ways hrest' hq
    | cons c z =>
      have hc : accepts c = false := hstop
      rw [hp _ _ hspells c (by simp)] at hc
      cases hc
  · cases z with
    | nil => exact h.not_mem_ways hrest' hq
    | cons c z =>
      exact (hgap (c :: z) (suffix_append _ _) (cons_ne_nil _ _)).not_mem_ways hrest' hq

theorem Passes.within (hp : p.Within accepts) (hgap : Passes q gap rest)
    (hstop : rest.head?.any accepts = false) (h : q.FailsAt rest) : Passes (p ++ q) gap rest :=
  fun _ hleft _ => .within hp (hgap.of_suffix hleft) hstop h

/-- `blanks1` takes one character in front of what does not lead on. -/
theorem FailsAt.space {b : Char} (hrest : rest.head?.any Text.isBlank = false)
    (h : q.FailsAt rest) : (blanks1 ++ q).FailsAt (b :: rest) := by
  refine .of_ways fun bound s hs t ht => ?_
  obtain ⟨u, hu, hq⟩ := mem_ways_append.mp ht
  obtain ⟨taken, rest', hne, ⟨hsplit, htaken⟩, rfl⟩ := mem_ways_many1.mp hu
  obtain ⟨e, taken, rfl⟩ := exists_cons_of_ne_nil hne
  have hsplit : rest = taken ++ rest' := (cons.inj (hs.symm.trans hsplit)).2
  cases taken with
  | nil => exact h.not_mem_ways hsplit.symm hq
  | cons d taken =>
    rw [hsplit] at hrest
    have hd : Text.isBlank d = false := hrest
    rw [htaken d (by simp)] at hd
    cases hd

/-- `blanks1` does not lead to a pattern in a text that ends with something else. -/
theorem Passes.blanks1 (hgap : Passes q gap rest) (hlast : gap.getLast?.any Text.isBlank = false) :
    Passes (Pattern.blanks1 ++ q) gap rest := by
  rcases eq_nil_or_concat gap with rfl | ⟨front, e, rfl⟩
  · exact .nil _ _
  · rw [concat_eq_append] at hgap hlast ⊢
    rw [getLast?_concat] at hlast
    have hend := hgap.of_suffix (suffix_append front [e])
    have hfront : Passes q front (e :: rest) := by
      intro left hleft hne
      obtain ⟨passed, rfl⟩ := hleft
      have hmore := hgap (left ++ [e]) ⟨passed, by simp⟩ (by simp)
      rwa [append_assoc] at hmore
    refine .append (.within .span hfront hlast (hend [e] suffix_rfl (cons_ne_nil _ _))) ?_
    exact .single (Refuses.append_left ⟨hlast, rfl⟩)

/-- `lit` does not lead to a pattern within another text, or at the end of one that what is behind
it does not go on. -/
theorem FailsAt.lit_word (hgap : Passes q gap rest)
    (hrest : ∀ c, rest.head? = some c → c ∉ word.toList) (h : gap = word.toList → q.FailsAt rest) :
    (Pattern.lit word ++ q).FailsAt (gap ++ rest) := by
  by_cases hbegins : word.toList <+: gap ++ rest
  · obtain ⟨more, hmore⟩ := hbegins
    rcases append_eq_append_iff.mp hmore with ⟨z, rfl, rfl⟩ | ⟨z, hword, rfl⟩
    · rw [append_assoc]
      refine .lit_append ?_
      cases z with
      | nil => exact h (append_nil _)
      | cons c z => exact hgap _ (suffix_append _ _) (cons_ne_nil _ _)
    · cases z with
      | nil =>
        rw [append_nil] at hword
        rw [← hword]
        exact .lit_append (h hword.symm)
      | cons c z => exact absurd (by simp [hword]) (hrest c rfl)
  · exact (FailsAt.lit hbegins).append q

theorem Passes.lit_word (hgap : Passes q gap rest)
    (hrest : ∀ c, rest.head? = some c → c ∉ word.toList) (h : word.toList <:+ gap → q.FailsAt rest) :
    Passes (Pattern.lit word ++ q) gap rest :=
  fun _ hleft _ => .lit_word (hgap.of_suffix hleft) hrest fun heq => h (heq ▸ hleft)

/-- Whether none of several texts begins another. -/
def noneBegins (texts : List String) : Bool :=
  texts.all fun w => texts.all fun v => w == v || !w.toList.isPrefixOf v.toList

/-- At a place stands at most one of several texts if `noneBegins` another. -/
theorem eq_of_mem_of_begins (h : noneBegins texts) {text w : String} (htext : text ∈ texts)
    (hw : w ∈ texts) (hbegins : w.toList <+: text.toList ++ rest) : w = text := by
  have heq : ∀ {v v' : String}, v ∈ texts → v' ∈ texts → v.toList <+: v'.toList → v = v' := by
    intro v v' hv hv' hbegins
    have hpair := all_eq_true.mp (all_eq_true.mp h v hv) v' hv'
    rw [List.isPrefixOf_iff_prefix.mpr hbegins, Bool.not_true, Bool.or_false, beq_iff_eq] at hpair
    exact hpair
  rcases prefix_or_prefix_of_prefix hbegins (prefix_append _ rest) with hshort | hlong
  · exact heq hw htext hshort
  · exact (heq htext hw hlong).symm

theorem FailsAt.anyOf_append (h : noneBegins texts) {text : String} (htext : text ∈ texts)
    (hrest : q.FailsAt rest) : (anyOf texts ++ q).FailsAt (text.toList ++ rest) := by
  refine .of_ways fun bound s hs t ht => ?_
  obtain ⟨u, hu, hq⟩ := mem_ways_append.mp ht
  obtain ⟨w, hw, rest', hs', rfl⟩ := mem_ways_anyOf.mp hu
  rw [hs] at hs'
  obtain rfl := eq_of_mem_of_begins h htext hw ⟨rest', hs'.symm⟩
  exact hrest.not_mem_ways (append_cancel_left hs').symm hq

/-- `many` stops at the last place behind which something follows. -/
theorem advance_many_of_last {bound : Nat} {next : State → Option State} {s t : State}
    (hrest : s.cursor.rest = gap ++ rest) (hgap : ∀ c ∈ gap, accepts c)
    (hlast : ∀ z left, rest = z ++ left → z ≠ [] → (∀ c ∈ z, accepts c) →
      ∀ u : State, u.cursor.rest = left → next u = none)
    (hnext : next (s.pass gap rest) = some t) : advance bound (many accepts) next s = some t := by
  induction gap generalizing s with
  | nil =>
    have hrest : s.cursor.rest = rest := hrest
    cases hfound : advance bound (many accepts) next s with
    | none =>
      have hnone := advance_eq_none_iff.mp hfound (s.pass [] rest)
        (mem_ways_many.mpr ⟨[], _, ⟨hrest, by simp⟩, rfl⟩)
      cases hnone.symm.trans hnext
    | some r =>
      obtain ⟨u, hu, hr⟩ := exists_mem_ways hfound
      obtain ⟨more, left, ⟨hsplit, hmore⟩, rfl⟩ := mem_ways_many.mp hu
      rw [hrest] at hsplit
      cases more with
      | nil =>
        obtain rfl : rest = left := hsplit
        exact hr.symm.trans hnext
      | cons d more =>
        have hnone := hlast _ left hsplit (cons_ne_nil _ _) hmore (s.pass (d :: more) left) rfl
        cases hnone.symm.trans hr
  | cons d gap ih =>
    have hmore := ih (s := s.pass [d] (gap ++ rest)) rfl
      (fun c hc => hgap c (mem_cons_of_mem _ hc)) (by rw [State.pass_pass]; exact hnext)
    rw [cons_append] at hrest
    rw [advance_many_of_accepts hrest (hgap d mem_cons_self), hmore, Option.some_or]

/-! ## The preferred way -/

/-- The way that a pattern prefers takes one text where another follows, and its groups remember
the texts listed, the latest first. -/
def Leads (bound : Nat) (p : Pattern) (taken rest : List Char) (groups : List (Nat × List Char)) :
    Prop :=
  ∀ s : State, s.cursor.rest = taken ++ rest →
    ∃ t : State, s.Goes t taken groups ∧
      ∀ next r, next t = some r → advance bound p next s = some r

namespace Leads

variable {bound : Nat}

/-- A pattern without groups `Leads` if it goes on behind the text. -/
theorem of_pass (h : ∀ s : State, s.cursor.rest = taken ++ rest →
    ∀ next r, next (s.pass taken rest) = some r → advance bound p next s = some r) :
    p.Leads bound taken rest [] :=
  fun s hrest => ⟨s.pass taken rest, .pass hrest, h s hrest⟩

/-- A pattern that goes on wherever another does `Leads` as the other. -/
theorem imp (h : p.Leads bound taken rest groups) (himp : ∀ s : State,
    s.cursor.rest = taken ++ rest → ∀ next r, advance bound p next s = some r →
      advance bound q next s = some r) : q.Leads bound taken rest groups := by
  intro s hrest
  obtain ⟨t, ht, hfirst⟩ := h s hrest
  exact ⟨t, ht, fun next r hnext => himp s hrest next r (hfirst next r hnext)⟩

theorem append (h : p.Leads bound taken (taken' ++ rest) groups)
    (h' : q.Leads bound taken' rest groups') :
    (p ++ q).Leads bound (taken ++ taken') rest (groups' ++ groups) := by
  intro s hrest
  rw [append_assoc] at hrest
  obtain ⟨u, hu, hfirst⟩ := h s hrest
  obtain ⟨t, ht, hsecond⟩ := h' u (congrArg Cursor.rest (hu.reaches.cursor_eq hrest))
  exact ⟨t, hu.trans ht, fun next r hnext => hfirst _ r (hsecond next r hnext)⟩

theorem lit (text : String) (rest : List Char) : (lit text).Leads bound text.toList rest [] := by
  refine of_pass fun s hrest next r hnext => ?_
  rw [advance_lit hrest, hnext]

theorem one {c : Char} (h : accepts c) (rest : List Char) : (one accepts).Leads bound [c] rest [] :=
  of_pass fun _ hrest _ _ hnext => advance_one_eq_some_iff.mpr ⟨c, rest, hrest, h, hnext⟩

theorem many (h : ∀ c ∈ taken, accepts c) (hstop : rest.head?.any accepts = false) :
    (many accepts).Leads bound taken rest [] :=
  of_pass fun _ hrest _ _ hnext => advance_many_of_some hrest h hstop hnext

theorem many1 (hne : taken ≠ []) (h : ∀ c ∈ taken, accepts c)
    (hstop : rest.head?.any accepts = false) : (many1 accepts).Leads bound taken rest [] :=
  of_pass fun _ hrest _ _ hnext => advance_many1_of_some hrest hne h hstop hnext

/-- `many` takes as many characters as possible, up to the last place where `q` matches. -/
theorem many_append (hgap : ∀ c ∈ gap, accepts c) (h : q.Leads bound taken rest groups)
    (hlast : ∀ left, left <:+ taken ++ rest → left ≠ taken ++ rest → q.FailsAt left) :
    (Pattern.many accepts ++ q).Leads bound (gap ++ taken) rest groups := by
  intro s hrest
  rw [append_assoc] at hrest
  obtain ⟨t, ht, hfirst⟩ := h (s.pass gap (taken ++ rest)) rfl
  refine ⟨t, ht.after_pass hrest, fun next r hnext => ?_⟩
  rw [advance_append]
  refine advance_many_of_last hrest hgap (fun z left hz hne _ u hu => ?_) (hfirst next r hnext)
  have hshorter : left ≠ taken ++ rest := fun heq => hne (self_eq_append_left.mp (heq.trans hz))
  exact hlast left ⟨z, hz.symm⟩ hshorter bound next u hu

theorem space (hstop : rest.head?.any Text.isBlank = false) : blanks1.Leads bound [' '] rest [] :=
  many1 (cons_ne_nil _ _) (by decide) hstop

theorem group (h : p.Leads bound taken rest groups) (index : Nat) :
    (group index p).Leads bound taken rest ((index, taken) :: groups) := by
  intro s hrest
  obtain ⟨t, ht, hfirst⟩ := h s hrest
  exact ⟨t.since index s, ht.since index, fun _ r hnext => hfirst _ r hnext⟩

theorem either (h : p.Leads bound taken rest groups) : (p ||| q).Leads bound taken rest groups :=
  h.imp fun _ _ _ _ => advance_either_of_some

theorem opt (h : p.Leads bound taken rest groups) : (opt p).Leads bound taken rest groups :=
  h.either

theorem opt_nil (h : p.FailsAt rest) : (Pattern.opt p).Leads bound [] rest [] := by
  refine of_pass fun s hrest next r hnext => ?_
  rw [nil_append] at hrest
  rw [advance_opt_of_none (h bound next s hrest), ← hnext, ← hrest]
  rfl

theorem oneOf {ps : List Pattern} (hmem : p ∈ ps) (h : p.Leads bound taken rest groups)
    (hother : ∀ q ∈ ps, q ≠ p → q.FailsAt (taken ++ rest)) :
    (oneOf ps).Leads bound taken rest groups :=
  h.imp fun s hrest next _ hfirst =>
    advance_oneOf_of_some hmem hfirst fun q hq hne => hother q hq hne bound next s hrest

theorem anyOf (h : noneBegins texts) {text : String} (htext : text ∈ texts)
    (rest : List Char) : (anyOf texts).Leads bound text.toList rest [] := by
  refine oneOf (mem_map_of_mem htext) (lit text rest) ?_
  rintro q hq hne
  obtain ⟨w, hw, rfl⟩ := mem_map.mp hq
  refine .lit fun hword => hne ?_
  rw [eq_of_mem_of_begins h htext hw hword]

/-- `star` makes several rounds, each with what it takes and remembers, up to where no other
begins. -/
theorem star {α : Type} {textOf : α → List Char} {groupsOf : α → List (Nat × List Char)}
    {rounds : List α} (hbound : rounds.length ≤ bound)
    (h : ∀ front a back, rounds = front ++ a :: back → textOf a ≠ [] ∧
      p.Leads bound (textOf a) (back.flatMap textOf ++ rest) (groupsOf a))
    (hstop : p.FailsAt rest) :
    (star p).Leads bound (rounds.flatMap textOf) rest (rounds.reverse.flatMap groupsOf) := by
  have hrounds : ∀ (count : Nat) (s : State), rounds.length ≤ count →
      s.cursor.rest = rounds.flatMap textOf ++ rest →
      ∃ t : State, s.Goes t (rounds.flatMap textOf) (rounds.reverse.flatMap groupsOf) ∧
        ∀ next r, next t = some r → upToEager (advance bound p) next count s = some r := by
    clear hbound
    induction rounds with
    | nil =>
      intro count s _ hrest
      have hrest : s.cursor.rest = rest := hrest
      refine ⟨s, .here s, fun next r hnext => ?_⟩
      cases count with
      | zero => exact hnext
      | succ count =>
        rw [upToEager, hstop bound _ s hrest]
        exact hnext
    | cons a rounds ih =>
      intro count s hcount hrest
      obtain ⟨count, rfl⟩ := Nat.exists_eq_add_of_le' (Nat.one_le_of_lt hcount)
      rw [flatMap_cons, append_assoc] at hrest
      obtain ⟨hne, hround⟩ := h [] a rounds rfl
      obtain ⟨u, hu, hfirst⟩ := hround s hrest
      have hcursor := hu.reaches.cursor_eq hrest
      obtain ⟨t, ht, hmore⟩ := ih (fun front b back hsplit =>
        h (a :: front) b back (congrArg (a :: ·) hsplit)) count u
          (Nat.le_of_succ_le_succ hcount) (congrArg Cursor.rest hcursor)
      refine ⟨t, ?_, fun next r hnext => ?_⟩
      · rw [reverse_cons, flatMap_append, flatMap_singleton]
        exact hu.trans ht
      · have hmoves : s.cursor.position < u.cursor.position := by
          rw [hcursor]
          exact Nat.lt_add_of_pos_right (length_pos_iff.mpr hne)
        rw [upToEager, hfirst _ r]
        rw [if_pos hmoves]
        exact hmore next r hnext
  exact fun s hrest => hrounds bound s hbound hrest

section Before

variable {index : Nat} (hgap : Passes q gap (taken ++ rest)) (h : q.Leads bound taken rest groups)

include h

/-- A group before a pattern: up to a place where the pattern matches, if its body prefers this
place to those where the pattern fails. -/
theorem group_before {body : Pattern}
    (hbody : ∀ (next : State → Option State) (s t : State), s.cursor.rest = gap ++ (taken ++ rest) →
      (∀ left, q.FailsAt left → ∀ u : State, u.cursor.rest = left → next u = none) →
        next (s.pass gap (taken ++ rest)) = some t → advance bound body next s = some t) :
    (Pattern.group index body ++ q).Leads bound (gap ++ taken) rest (groups ++ [(index, gap)]) := by
  intro s hrest
  rw [append_assoc] at hrest
  obtain ⟨t, ht, hfirst⟩ := h ((s.pass gap (taken ++ rest)).since index s) rfl
  refine ⟨t, ((State.Goes.pass hrest).since index).trans ht, fun next r hnext => ?_⟩
  rw [advance_append, advance_group]
  exact hbody _ s r hrest (fun left hleft u hu => hleft bound next _ hu) (hfirst next r hnext)

theorem group_eager {c : Char} {first : Char → Bool} (hc : first c) (hne : gap ≠ [])
    (hgap : ∀ d ∈ gap, accepts d)
    (hlast : ∀ z left, taken ++ rest = z ++ left → z ≠ [] → (∀ d ∈ z, accepts d) → q.FailsAt left) :
    (Pattern.group index (Pattern.one first ++ Pattern.many1 accepts) ++ q).Leads bound
      (c :: gap ++ taken) rest (groups ++ [(index, c :: gap)]) := by
  refine group_before h fun next s t hrest hnone hnext => ?_
  obtain ⟨d, gap, rfl⟩ := exists_cons_of_ne_nil hne
  rw [advance_append]
  refine advance_one_eq_some_iff.mpr ⟨c, _, hrest, hc, ?_⟩
  rw [advance_many1]
  refine advance_one_eq_some_iff.mpr ⟨d, _, rfl, hgap d mem_cons_self, ?_⟩
  refine advance_many_of_last rfl (fun e he => hgap e (mem_cons_of_mem _ he))
    (fun z left hz hne hz' => hnone left (hlast z left hz hne hz')) ?_
  rw [State.pass_pass, State.pass_pass]
  exact hnext

include hgap

theorem fewest_append : (fewest anyChar ++ q).Leads bound (gap ++ taken) rest groups := by
  intro s hrest
  rw [append_assoc] at hrest
  obtain ⟨t, ht, hfirst⟩ := h (s.pass gap (taken ++ rest)) rfl
  refine ⟨t, ht.after_pass hrest, fun next r hnext => ?_⟩
  exact advance_fewest_anyChar hgap hrest (hfirst next r hnext)

theorem group_fewest : (Pattern.group index (fewest anyChar) ++ q).Leads bound (gap ++ taken) rest
    (groups ++ [(index, gap)]) :=
  group_before h fun _ _ _ hrest hnone hnext => advance_fewest_of_some hrest (fun _ _ => rfl)
    (fun left hleft hne => hnone _ (hgap left hleft hne)) hnext

theorem group_fewest1 (hne : gap ≠ []) (haccepts : ∀ c ∈ gap, accepts c) :
    (Pattern.group index (span accepts 1 none false) ++ q).Leads bound (gap ++ taken) rest
      (groups ++ [(index, gap)]) :=
  group_before h fun _ _ _ hrest hnone hnext => advance_fewest1_of_some hrest hne haccepts
    (fun left hleft hne => hnone _ (hgap left hleft hne)) hnext

end Before

theorem of_advance_eq (hsame : ∀ next s, advance bound q next s = advance bound p next s)
    (h : p.Leads bound taken rest groups) : q.Leads bound taken rest groups :=
  h.imp fun s _ next _ hfirst => (hsame next s).trans hfirst

theorem fits (h : ∀ bound, p.Leads bound taken rest groups) : p.Fits taken rest := by
  intro bound s hrest
  obtain ⟨t, ht, hfirst⟩ := h bound s hrest
  obtain ⟨u, hu, hsome⟩ := exists_mem_ways (hfirst some t rfl)
  cases hsome
  exact ⟨t, hu, congrArg Cursor.rest (ht.reaches.cursor_eq hrest)⟩

/-- The text that a pattern `Leads` through is its match. -/
theorem matchAt? (h : p.Leads bound taken rest groups) {c : Cursor} (hrest : c.rest = taken ++ rest) :
    ∃ m, matchAt? p bound false c = some m ∧ m.start = c.position ∧
      m.stop = c.position + taken.length ∧ m.source = c.rest ∧
      ∀ index, m.group? index = groups.lookup index := by
  obtain ⟨t, ht, hfirst⟩ := h ⟨c, []⟩ hrest
  refine ⟨.ofWay c t, ?_, rfl, congrArg position (ht.reaches.cursor_eq hrest), rfl,
    fun index => (ht.group?_eq index).trans Option.or_none⟩
  rw [matchAt?_eq, hfirst some t rfl]
  rfl

section Next

variable (h : p.Leads bound taken rest groups) (hgap : Passes p gap (taken ++ rest)) {c : Cursor}
variable (hrest : c.rest = gap ++ (taken ++ rest))

include h hgap hrest

/-- Behind a text that a pattern `Passes`, `searchFrom` finds what it `Leads` through. -/
theorem searchFrom (hne : taken ≠ []) :
    ∃ m : Match, m.start = c.position + gap.length ∧ m.text = taken ∧
      (∀ index, m.group? index = groups.lookup index) ∧
      searchFrom p bound c = m :: searchFrom p bound (c.pass (gap ++ taken) rest) := by
  obtain ⟨m, hmatch, hstart, hstop, hsource, hgroups⟩ :=
    h.matchAt? (c := c.pass gap (taken ++ rest)) rfl
  refine ⟨m, hstart, ?_, hgroups, ?_⟩
  · rw [Match.text, hsource, hstart, hstop]
    simp [Cursor.pass]
  · rw [hgap.searchFrom hrest, searchFrom_of_some rfl hne hmatch hstop, pass_pass]

theorem firstAt? : ∃ m : Match, p.firstAt? bound c = some m ∧
    ∀ index, m.group? index = groups.lookup index := by
  obtain ⟨m, hmatch, -, -, -, hgroups⟩ := h.matchAt? (c := c.pass gap (taken ++ rest)) rfl
  refine ⟨m, ?_, hgroups⟩
  rw [hgap.firstAt? hrest]
  exact firstFrom?_of_some hmatch

end Next

end Leads

/-! ## Searching part by part -/

section Reads

variable {β : Type} {meaning : Match → β} {text tail : List Char} {outs : List β}

theorem Reads.of_leads {b : β} (hne : taken ≠ []) (h : ∀ bound, p.Leads bound taken tail groups)
    (hmeaning : ∀ m : Match, (∀ index, m.group? index = groups.lookup index) → meaning m = b) :
    Reads p meaning taken [b] tail := by
  intro bound c hrest
  obtain ⟨m, hmatch, -, hend, -, hgroups⟩ := (h bound).matchAt? hrest
  rw [searchFrom_of_some hrest hne hmatch hend, map_cons, hmeaning m hgroups]
  rfl

/-- **A pattern `Reads` a list of texts** if it reads each of them. -/
theorem Reads.flatMap {α : Type} {textOf : α → List Char} {outsOf : α → List β} {items : List α}
    (h : ∀ front a back, items = front ++ a :: back →
      Reads p meaning (textOf a) (outsOf a) (back.flatMap textOf ++ tail)) :
    Reads p meaning (items.flatMap textOf) (items.flatMap outsOf) tail := by
  induction items with
  | nil => exact .of_passes (.nil p tail)
  | cons a items ih =>
    refine (h [] a items rfl).append (ih fun front b back hsplit => ?_)
    exact h (a :: front) b back (congrArg (a :: ·) hsplit)

theorem Reads.findAll (h : Reads p meaning text outs []) (hend : p.Refuses none) :
    (p.findAll text).map meaning = outs := by
  rw [findAll_eq_searchFrom, h _ _ (append_nil _).symm, searchFrom_of_refuses rfl hend,
    map_nil, append_nil]

end Reads

end CodeAtlas.Pattern
