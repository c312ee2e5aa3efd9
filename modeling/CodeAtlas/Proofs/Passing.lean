import Mathlib.Data.List.Infix
import CodeAtlas.Proofs.Searching

/-!
# Texts that a search passes over

A pattern matches at a place if it `Fits` the text there, and does not if it `FailsAt` that text. A
search passes over a text in which no match begins. Whether one does depends on what follows, as a
match may begin near the end of a text and reach beyond it; `Passes` keeps both. Such texts may be
put one after another (`Passes.append`), so a search through a long text is followed part by part.
-/

open List

namespace CodeAtlas.Pattern

open Cursor

variable {p q : Pattern} {bound : Nat} {c : Cursor} {m : Match} {text gap rest : List Char}
variable {accepts : Char → Bool}
variable {next : State → Option State}

/-! ## Places without a match -/

/-- A pattern does not match where a given text comes next. -/
def FailsAt (p : Pattern) (text : List Char) : Prop :=
  ∀ (bound : Nat) (next : State → Option State) (s : State), s.cursor.rest = text →
    advance bound p next s = none

theorem FailsAt.of_refuses (h : p.Refuses text.head?) : p.FailsAt text := by
  intro bound next s hrest
  refine Refuses.advance_eq_none ?_
  rw [hrest]
  exact h

/-- To refute a match, all `ways` are refuted. -/
theorem FailsAt.of_ways (h : ∀ bound s, s.cursor.rest = text → ∀ t, t ∉ ways bound p s) :
    p.FailsAt text := by
  intro bound next s hrest
  exact advance_eq_none_iff.mpr fun t ht => absurd ht (h bound s hrest t)

theorem FailsAt.append (h : p.FailsAt text) (q : Pattern) : (p ++ q).FailsAt text := by
  intro bound next s hrest
  exact h bound (advance bound q next) s hrest

theorem FailsAt.group (h : p.FailsAt text) (index : Nat) : (group index p).FailsAt text :=
  fun bound _ s hrest => h bound _ s hrest

theorem FailsAt.either (h : p.FailsAt text) (h' : q.FailsAt text) : (p ||| q).FailsAt text :=
  fun bound next s hrest =>
    (advance_either_of_none (h bound next s hrest)).trans (h' bound next s hrest)

theorem FailsAt.ahead (h : p.FailsAt text) : (ahead p).FailsAt text := by
  intro bound next s hrest
  rw [advance, h bound some s hrest]

/-- `lit` fails where its text does not stand. -/
theorem FailsAt.lit {word : String} (h : ¬ word.toList <+: text) : (lit word).FailsAt text := by
  intro bound next s hrest
  refine advance_lit_of_not_prefix ?_
  rw [hrest]
  exact h

theorem FailsAt.not_mem_ways {s t : State} (h : p.FailsAt text) (hrest : s.cursor.rest = text) :
    t ∉ ways bound p s := by
  intro ht
  have hnone := advance_eq_none_iff.mp (h bound some s hrest) t ht
  cases hnone

/-- A pattern fails if what it must come to matches nowhere behind. -/
theorem FailsAt.of_suffixes (h : ∀ left, left <:+ text → q.FailsAt left) :
    (p ++ q).FailsAt text := by
  refine .of_ways fun bound s hrest t ht => ?_
  obtain ⟨u, hu, hq⟩ := mem_ways_append.mp ht
  obtain ⟨taken, ⟨left, hsplit, hcursor⟩, -⟩ := reaches_of_mem_ways hu
  have hleft : left <:+ text := ⟨taken, hsplit.symm.trans hrest⟩
  exact (h left hleft).not_mem_ways (congrArg rest hcursor) hq

/-- A pattern that must come to `lit` fails where that text does not stand. -/
theorem FailsAt.of_absent {word : String} (h : ¬ word.toList <:+: text) :
    (p ++ Pattern.lit word).FailsAt text :=
  .of_suffixes fun _ hleft => .lit fun hword => h (hword.isInfix.trans hleft.isInfix)

theorem FailsAt.of_not_mem {word : String} {d : Char} (hd : d ∈ word.toList) (h : d ∉ text) :
    (p ++ Pattern.lit word).FailsAt text :=
  .of_absent fun hword => h (hword.subset hd)

theorem FailsAt.matchAt? (h : p.FailsAt text) (hrest : c.rest = text) :
    matchAt? p bound false c = none :=
  matchAt?_eq_none_iff.mpr (h bound some ⟨c, []⟩ hrest)

/-! ## Places with a match -/

/-- A pattern has a way to match one text where another follows. -/
def Fits (p : Pattern) (taken rest : List Char) : Prop :=
  ∀ (bound : Nat) (s : State), s.cursor.rest = taken ++ rest →
    ∃ t ∈ ways bound p s, t.cursor.rest = rest

namespace Fits

variable {taken taken' : List Char} {accepts : Char → Bool}

theorem append (h : p.Fits taken (taken' ++ rest)) (h' : q.Fits taken' rest) :
    (p ++ q).Fits (taken ++ taken') rest := by
  intro bound s hrest
  rw [append_assoc] at hrest
  obtain ⟨u, hu, hurest⟩ := h bound s hrest
  obtain ⟨t, ht, htrest⟩ := h' bound u hurest
  exact ⟨t, mem_ways_append.mpr ⟨u, hu, ht⟩, htrest⟩

theorem lit (text : String) (rest : List Char) : (lit text).Fits text.toList rest :=
  fun _ s hrest => ⟨s.pass text.toList rest, mem_ways_lit.mpr ⟨rest, hrest, rfl⟩, rfl⟩

theorem anyOf {texts : List String} {text : String} (h : text ∈ texts) (rest : List Char) :
    (anyOf texts).Fits text.toList rest :=
  fun _ s hrest =>
    ⟨s.pass text.toList rest, mem_ways_anyOf.mpr ⟨text, h, rest, hrest, rfl⟩, rfl⟩

theorem many (h : ∀ d ∈ taken, accepts d) (rest : List Char) : (many accepts).Fits taken rest :=
  fun _ s hrest => ⟨s.pass taken rest, mem_ways_many.mpr ⟨taken, rest, ⟨hrest, h⟩, rfl⟩, rfl⟩

theorem many1 (hne : taken ≠ []) (h : ∀ d ∈ taken, accepts d) (rest : List Char) :
    (many1 accepts).Fits taken rest :=
  fun _ s hrest =>
    ⟨s.pass taken rest, mem_ways_many1.mpr ⟨taken, rest, hne, ⟨hrest, h⟩, rfl⟩, rfl⟩

theorem group (h : p.Fits taken rest) (index : Nat) : (group index p).Fits taken rest := by
  intro bound s hrest
  obtain ⟨t, ht, htrest⟩ := h bound s hrest
  exact ⟨t.since index s, mem_ways_group.mpr ⟨t, ht, rfl⟩, htrest⟩

theorem opt (h : p.Fits taken rest) : (opt p).Fits taken rest := by
  intro bound s hrest
  obtain ⟨t, ht, htrest⟩ := h bound s hrest
  exact ⟨t, mem_ways_opt.mpr (.inl ht), htrest⟩

theorem opt_nil (p : Pattern) (rest : List Char) : (Pattern.opt p).Fits [] rest :=
  fun _ s hrest => ⟨s, mem_ways_opt.mpr (.inr rfl), hrest⟩

theorem again1 {eager : Bool} (h : p.Fits taken rest) : (again p 1 none eager).Fits taken rest := by
  intro bound s hrest
  obtain ⟨t, ht, htrest⟩ := h bound s hrest
  exact ⟨t, mem_ways_again1.mpr ⟨t, ht, self_mem_moreWays _ _ _ _⟩, htrest⟩

theorem matchAt? (h : p.Fits taken rest) (bound : Nat) (hrest : c.rest = taken ++ rest) :
    ∃ t ∈ ways bound p ⟨c, []⟩, matchAt? p bound false c = some (.ofWay c t) := by
  obtain ⟨u, hu, -⟩ := h bound ⟨c, []⟩ hrest
  cases hmatch : Pattern.matchAt? p bound false c with
  | none =>
    have hnone := advance_eq_none_iff.mp (matchAt?_eq_none_iff.mp hmatch) u hu
    cases hnone
  | some m =>
    obtain ⟨t, ht, rfl⟩ := exists_way_of_matchAt? hmatch
    exact ⟨t, ht, rfl⟩

end Fits

/-! ## Passing over a text -/

/-- No match begins in `gap` if `rest` follows it. -/
def Passes (p : Pattern) (gap rest : List Char) : Prop :=
  ∀ left, left <:+ gap → left ≠ [] → p.FailsAt (left ++ rest)

theorem Passes.nil (p : Pattern) (rest : List Char) : Passes p [] rest := by
  intro left hleft hne
  exact absurd (suffix_nil.mp hleft) hne

theorem passes_cons_iff {d : Char} :
    Passes p (d :: gap) rest ↔ p.FailsAt (d :: gap ++ rest) ∧ Passes p gap rest := by
  constructor
  · intro h
    refine ⟨h _ suffix_rfl (cons_ne_nil _ _), fun left hleft hne => ?_⟩
    exact h left (suffix_cons_iff.mpr (.inr hleft)) hne
  · rintro ⟨hhere, hmore⟩ left hleft hne
    rcases suffix_cons_iff.mp hleft with rfl | hleft
    · exact hhere
    · exact hmore left hleft hne

theorem Passes.append {gap' : List Char} (h : Passes p gap (gap' ++ rest))
    (h' : Passes p gap' rest) : Passes p (gap ++ gap') rest := by
  induction gap with
  | nil => exact h'
  | cons d gap ih =>
    obtain ⟨hhere, hmore⟩ := passes_cons_iff.mp h
    refine passes_cons_iff.mpr ⟨?_, ih hmore⟩
    rw [← append_assoc] at hhere
    exact hhere

theorem Passes.extend (h : Passes p gap rest) (q : Pattern) : Passes (p ++ q) gap rest :=
  fun left hleft hne => (h left hleft hne).append q

/-- A pattern `Passes` over characters that it cannot begin with. -/
theorem Passes.of_refuses (h : ∀ d ∈ gap, p.Refuses (some d)) : Passes p gap rest := by
  intro left hleft hne
  obtain ⟨d, left, rfl⟩ := exists_cons_of_ne_nil hne
  exact .of_refuses (h d (hleft.subset mem_cons_self))

/-- A pattern that begins with one character `Passes` over a text without it. -/
theorem Passes.of_not_mem {d : Char} (hheads : p.heads = [(· == d)]) (hskips : p.skips = false)
    (h : d ∉ gap) : Passes p gap rest := by
  refine .of_refuses fun c hc => .of_heads hskips ?_
  rw [hheads, forall_mem_singleton]
  exact beq_false_of_ne (ne_of_mem_of_not_mem hc h)

theorem Passes.of_advance_eq
    (hsame : ∀ bound next s, advance bound q next s = advance bound p next s)
    (h : Passes p gap rest) : Passes q gap rest :=
  fun left hleft hne bound next s hrest =>
    (hsame bound next s).trans (h left hleft hne bound next s hrest)

theorem Passes.single {d : Char} (h : p.Refuses (some d)) : Passes p [d] rest :=
  .of_refuses (forall_mem_singleton.mpr h)

theorem Passes.searchFrom (h : Passes p gap rest) (hrest : c.rest = gap ++ rest) :
    searchFrom p bound c = searchFrom p bound (c.pass gap rest) := by
  refine searchFrom_skip hrest fun passed d between hsplit => ?_
  exact (h (d :: between) ⟨passed, hsplit.symm⟩ (cons_ne_nil _ _)).matchAt? rfl

/-- A text without a match at its end, either. -/
theorem Passes.searchFrom_eq_nil (h : Passes p text []) (hend : p.Refuses none)
    (hrest : c.rest = text) : Pattern.searchFrom p bound c = [] := by
  rw [← append_nil text] at hrest
  rw [h.searchFrom hrest]
  exact searchFrom_of_refuses rfl hend

/-! ## The first match -/

def firstAt? (p : Pattern) (bound : Nat) (c : Cursor) : Option Match :=
  firstFrom? p bound c.before c.position c.rest

theorem find?_eq_firstAt? (p : Pattern) (text : List Char) :
    p.find? text = p.firstAt? text.length (.start text) := rfl

theorem Passes.firstAt? (h : Passes p gap rest) (hrest : c.rest = gap ++ rest) :
    firstAt? p bound c = firstAt? p bound (c.pass gap rest) := by
  induction gap generalizing c with
  | nil =>
    rw [nil_append] at hrest
    rw [← hrest, pass_nil]
  | cons d gap ih =>
    obtain ⟨hhere, hmore⟩ := passes_cons_iff.mp h
    have hstep : Pattern.firstAt? p bound c =
        Pattern.firstAt? p bound (c.pass [d] (gap ++ rest)) :=
      firstFrom?_of_none hrest (hhere.matchAt? hrest)
    rw [hstep, ih hmore rfl, pass_pass, singleton_append]

theorem Passes.firstAt?_eq_none (h : Passes p text []) (hend : p.Refuses none)
    (hrest : c.rest = text) : Pattern.firstAt? p bound c = none := by
  rw [← append_nil text] at hrest
  have hnone : matchAt? p bound false (c.pass text []) = none :=
    (FailsAt.of_refuses hend).matchAt? rfl
  rw [h.firstAt? hrest, Pattern.firstAt?, firstFrom?.eq_def, hnone]
  rfl

/-- `firstAt?` finds nothing exactly if no place has a match. -/
theorem firstAt?_eq_none_iff : p.firstAt? bound c = none ↔ ∀ passed rest,
    c.rest = passed ++ rest → matchAt? p bound false (c.pass passed rest) = none := by
  have hstart : ∀ {c : Cursor}, p.firstAt? bound c = none → matchAt? p bound false c = none := by
    intro c h
    cases hmatch : matchAt? p bound false c with
    | none => rfl
    | some m =>
      rw [firstAt?, firstFrom?_of_some hmatch] at h
      cases h
  constructor
  · intro h passed
    induction passed generalizing c with
    | nil =>
      intro rest hrest
      rw [nil_append] at hrest
      rw [← hrest, pass_nil]
      exact hstart h
    | cons d passed ih =>
      intro rest hrest
      have hmore : p.firstAt? bound (c.pass [d] (passed ++ rest)) = none :=
        (firstFrom?_of_none hrest (hstart h)).symm.trans h
      have hthere := ih hmore rest rfl
      rwa [pass_pass, singleton_append] at hthere
  · intro h
    cases hfound : p.firstAt? bound c with
    | none => rfl
    | some m =>
      obtain ⟨passed, rest, hrest, hhere, -⟩ := exists_firstMatch hfound
      rw [h passed rest hrest] at hhere
      cases hhere

/-! ## Classes -/

/-- A class without some characters. -/
theorem notAmong_of_accepts {chars : String} {c : Char} (h : accepts c)
    (hchars : ∀ d ∈ chars.toList, accepts d = false) : notAmong chars c := by
  rw [notAmong, Bool.not_eq_true', contains_eq_mem, decide_eq_false_iff_not]
  intro hc
  rw [hchars c hc] at h
  cases h

/-! ## Reluctant repetitions -/

/-- `fewest` takes as few characters as possible: up to the first place where the rest matches. -/
theorem advance_fewest_of_some {s t : State} (hrest : s.cursor.rest = gap ++ rest)
    (hgap : ∀ d ∈ gap, accepts d)
    (hnone : ∀ left, left <:+ gap → left ≠ [] → ∀ u : State, u.cursor.rest = left ++ rest →
      next u = none) (hnext : next (s.pass gap rest) = some t) :
    advance bound (fewest accepts) next s = some t := by
  have hstep : ∀ (s : State), advance bound (fewest accepts) next s =
      spanReluctant accepts next none s.cursor.before s.cursor.position s.captures s.cursor.rest :=
    fun _ => rfl
  induction gap generalizing s with
  | nil =>
    rw [nil_append] at hrest
    rw [← hrest] at hnext
    rw [hstep, spanReluctant.eq_def]
    have hhere :
        next ⟨⟨s.cursor.before, s.cursor.position, s.cursor.rest⟩, s.captures⟩ = some t := hnext
    rw [hhere]
  | cons d gap ih =>
    have hhere : next ⟨⟨s.cursor.before, s.cursor.position, d :: (gap ++ rest)⟩, s.captures⟩ =
        none := hnone (d :: gap) suffix_rfl (cons_ne_nil _ _) _ rfl
    have hmove := ih (s := s.pass [d] (gap ++ rest)) rfl
      (fun e he => hgap e (mem_cons_of_mem _ he))
      (fun left hleft => hnone left (suffix_cons_iff.mpr (.inr hleft)))
      (by rw [State.pass_pass, singleton_append]; exact hnext)
    rw [hstep] at hmove ⊢
    rw [hrest, cons_append, spanReluctant, hhere]
    simp only [hgap d mem_cons_self, Bool.true_and]
    exact hmove

theorem advance_fewest_anyChar {s t : State} (h : Passes p gap rest)
    (hrest : s.cursor.rest = gap ++ rest) (hnext : advance bound p next (s.pass gap rest) = some t) :
    advance bound (fewest anyChar) (advance bound p next) s = some t :=
  advance_fewest_of_some hrest (fun _ _ => rfl)
    (fun left hleft hne u hu => h left hleft hne bound next u hu) hnext

/-- `span` that is reluctant takes one character and then as few as possible. -/
theorem advance_fewest1_of_some {s t : State} (hrest : s.cursor.rest = gap ++ rest) (hne : gap ≠ [])
    (hgap : ∀ d ∈ gap, accepts d)
    (hnone : ∀ left, left <:+ gap → left ≠ [] → ∀ u : State, u.cursor.rest = left ++ rest →
      next u = none) (hnext : next (s.pass gap rest) = some t) :
    advance bound (span accepts 1 none false) next s = some t := by
  obtain ⟨d, gap, rfl⟩ := exists_cons_of_ne_nil hne
  have hone : advance bound (span accepts 1 none false) next s =
      advance bound (fewest accepts) next (s.pass [d] (gap ++ rest)) := by
    rw [advance, takeExactly, hrest]
    simp only [cons_append, hgap d mem_cons_self, if_true]
    rfl
  rw [hone]
  refine advance_fewest_of_some rfl (fun e he => hgap e (mem_cons_of_mem _ he))
    (fun left hleft => hnone left (suffix_cons_iff.mpr (.inr hleft))) ?_
  rw [State.pass_pass, singleton_append]
  exact hnext

/-! ## Searching line by line -/

/-- What follows a line in `linesText`. -/
def afterLine (lines : List (List Char)) (ended : Bool) : List Char :=
  (if lines.isEmpty then [] else ['\n']) ++ linesText lines ended

theorem linesText_cons (line : List Char) (lines : List (List Char)) (ended : Bool) :
    linesText (line :: lines) ended = line ++ afterLine lines ended := by
  cases lines with
  | nil => rfl
  | cons line' lines => simp [linesText, afterLine, Text.joinWith]

/-- What is found of lines that are read if they are admitted. -/
theorem filterMap_ite {α β : Type} (holds : α → Bool) (f : α → β) (l : List α) :
    (l.filterMap fun a => if holds a then some (f a) else none) = (l.filter holds).map f := by
  induction l with
  | nil => rfl
  | cons a l ih =>
    rw [filterMap_cons, filter_cons, ih]
    cases holds a <;> rfl

section Reads

variable {β : Type} {meaning : Match → β} {text' tail : List Char} {outs outs' : List β}

/-- A search that begins with a text has what is listed, and goes on with what follows the text. -/
def Reads (p : Pattern) (meaning : Match → β) (text : List Char) (outs : List β)
    (tail : List Char) : Prop :=
  ∀ (bound : Nat) (c : Cursor), c.rest = text ++ tail →
    (searchFrom p bound c).map meaning =
      outs ++ (searchFrom p bound (c.pass text tail)).map meaning

theorem Reads.of_passes (h : Passes p text tail) : Reads p meaning text [] tail :=
  fun _ _ hrest => congrArg (List.map meaning) (h.searchFrom hrest)

theorem Reads.append (h : Reads p meaning text outs (text' ++ tail))
    (h' : Reads p meaning text' outs' tail) :
    Reads p meaning (text ++ text') (outs ++ outs') tail := by
  intro bound c hrest
  rw [append_assoc] at hrest
  rw [h bound c hrest, h' bound _ rfl, pass_pass, append_assoc]

theorem Reads.append_passes (h : Reads p meaning text outs (text' ++ tail))
    (h' : Passes p text' tail) : Reads p meaning (text ++ text') outs tail := by
  have hreads := h.append (.of_passes h')
  rwa [append_nil] at hreads

/-- **`searchFrom` lines** has what the first lines give, and goes on with the others. -/
theorem exists_searchFrom_lines {α : Type} {lineOf : α → List Char} {outOf : α → Option β}
    {first more : List α} {ended : Bool} (hfeed : p.Refuses (some '\n'))
    (h : ∀ front a back, first = front ++ a :: back →
      Reads p meaning (lineOf a) (outOf a).toList (afterLine ((back ++ more).map lineOf) ended))
    (hrest : c.rest = linesText ((first ++ more).map lineOf) ended) :
    ∃ c', c'.rest = linesText (more.map lineOf) ended ∧ (searchFrom p bound c).map meaning =
        first.filterMap outOf ++ (searchFrom p bound c').map meaning := by
  induction first generalizing c with
  | nil => exact ⟨c, hrest, rfl⟩
  | cons a first ih =>
    rw [cons_append, map_cons, linesText_cons, afterLine, ← append_assoc] at hrest
    -- a line feed stands in front of the next line, if there is one
    have hfeeds : Passes p (if ((first ++ more).map lineOf).isEmpty then [] else ['\n'])
        (linesText ((first ++ more).map lineOf) ended) := by
      refine .of_refuses fun d hd => ?_
      split at hd
      · cases hd
      · rw [mem_singleton.mp hd]
        exact hfeed
    obtain ⟨next, hnext, hline⟩ : ∃ next : Cursor,
        next.rest = linesText ((first ++ more).map lineOf) ended ∧ (searchFrom p bound c).map meaning =
          (outOf a).toList ++ (searchFrom p bound next).map meaning :=
      ⟨_, rfl, (h [] a first rfl).append_passes hfeeds bound c hrest⟩
    obtain ⟨c', hc', hmore⟩ := ih (fun front b back hsplit =>
      h (a :: front) b back (congrArg (a :: ·) hsplit)) hnext
    refine ⟨c', hc', ?_⟩
    rw [hline, hmore, ← append_assoc, filterMap_cons]
    cases outOf a <;> rfl

theorem findAll_linesText {α : Type} {lineOf : α → List Char} {outOf : α → Option β}
    {lines : List α} {ended : Bool} (hfeed : p.Refuses (some '\n')) (hend : p.Refuses none)
    (h : ∀ front a back, lines = front ++ a :: back →
      Reads p meaning (lineOf a) (outOf a).toList (afterLine (back.map lineOf) ended)) :
    (p.findAll (linesText (lines.map lineOf) ended)).map meaning = lines.filterMap outOf := by
  have hrest : (start (linesText (lines.map lineOf) ended)).rest =
      linesText ((lines ++ []).map lineOf) ended := by
    rw [append_nil]
    rfl
  obtain ⟨c', hc', hfound⟩ := exists_searchFrom_lines hfeed (fun front a back hsplit => by
    rw [append_nil]
    exact h front a back hsplit) hrest
  have hlast : Passes p (linesText [] ended) [] := by
    refine .of_refuses fun d hd => ?_
    cases ended with
    | false => cases hd
    | true =>
      obtain rfl := mem_singleton.mp hd
      exact hfeed
  rw [findAll_eq_searchFrom, hfound, hlast.searchFrom_eq_nil hend hc', map_nil, append_nil]

end Reads

end CodeAtlas.Pattern
