import CodeAtlas.Outline.JavaEndpoints
import CodeAtlas.Proofs.Words

/-!
# Texts in quotes

Quotes cut a text into pieces, and whatever is taken for the path of an annotation is one whole
piece: the one behind the first piece that ends in `path =`, else the one behind the first that ends
in `value =`, else one that stands alone between parentheses, else the first piece between quotes
(`annotationPath?_eq`). This is so for every text.
-/

open List

namespace CodeAtlas

namespace Pattern

variable {p : Pattern} {bound : Nat} {c : Cursor}

/-- If a pattern matches behind some text and every match that begins in between means the same, so
does `firstAt?`. -/
theorem firstAt?_map_eq {β : Type} {meaning : Match → β} {b : β} {front rest : List Char}
    (hrest : c.rest = front ++ rest)
    (hhere : ∃ m, matchAt? p bound false (c.pass front rest) = some m)
    (hmeaning : ∀ left, left <:+ front → ∀ (c' : Cursor) (m : Match), c'.rest = left ++ rest →
      matchAt? p bound false c' = some m → meaning m = b) :
    (p.firstAt? bound c).map meaning = some b := by
  induction front generalizing c with
  | nil =>
    rw [nil_append] at hrest
    rw [← hrest, Cursor.pass_nil] at hhere
    obtain ⟨m, hm⟩ := hhere
    have hfirst : p.firstAt? bound c = some m := firstFrom?_of_some hm
    rw [hfirst, Option.map_some, hmeaning [] suffix_rfl c m hrest hm]
  | cons d front ih =>
    cases hm : matchAt? p bound false c with
    | some m =>
      have hfirst : p.firstAt? bound c = some m := firstFrom?_of_some hm
      rw [hfirst, Option.map_some, hmeaning (d :: front) suffix_rfl c m hrest hm]
    | none =>
      have hstep : p.firstAt? bound c = p.firstAt? bound (c.pass [d] (front ++ rest)) :=
        firstFrom?_of_none hrest hm
      rw [hstep]
      refine ih rfl ?_ fun left hleft => hmeaning left (suffix_cons_iff.mpr (.inr hleft))
      rw [Cursor.pass_pass]
      exact hhere

end Pattern

open Pattern Outline Text

namespace Java

variable {bound : Nat} {s t : State} {p : Pattern} {taken : List Char}
variable {groups : List (Nat × List Char)}

/-! ## Pieces between quotes -/

/-- A pattern for a text in quotes, by what may lead up to the quotes and what may follow them. The
text in quotes is remembered as group 1. -/
structure FindsQuoted (p : Pattern) (Leads : List Char → Prop) (closes : List Char → Bool) :
    Prop where
  sound : ∀ {bound s t}, t ∈ ways bound p s → ∃ left inner more,
    s.cursor.rest = left ++ '"' :: (inner ++ '"' :: more) ∧ Leads left ∧ inner ≠ [] ∧
      '"' ∉ inner ∧ closes more = true ∧ t.group? 1 = some inner
  complete : ∀ {bound s left inner more}, s.cursor.rest = left ++ '"' :: (inner ++ '"' :: more) →
    Leads left → inner ≠ [] → '"' ∉ inner → closes more = true → ∃ t, t ∈ ways bound p s
  plain : ∀ {left}, Leads left → '"' ∉ left
  nearby : ∀ {piece} (more), '"' ∉ piece → closes (piece ++ '"' :: more) = closes piece

/-- The first piece that is not empty, is followed by another one that closes it, and has a piece
before it that ends as wanted. -/
def pieceAfter (ends closes : List Char → Bool) : List (List Char) → Option (List Char)
  | front :: inner :: after :: pieces =>
    if ends front && !inner.isEmpty && closes after then some inner
    else pieceAfter ends closes (inner :: after :: pieces)
  | _ => none

/-- Two cuts of a text at its first quotes are the same. -/
theorem quotes_inj {left left' inner inner' more more' : List Char} (hleft : '"' ∉ left)
    (hleft' : '"' ∉ left') (hinner : '"' ∉ inner) (hinner' : '"' ∉ inner')
    (h : left ++ '"' :: (inner ++ '"' :: more) = left' ++ '"' :: (inner' ++ '"' :: more')) :
    left = left' ∧ inner = inner' ∧ more = more' := by
  obtain ⟨hl, hrest⟩ := append_cons_inj_of_not_mem h hleft hleft'
  exact ⟨hl, append_cons_inj_of_not_mem hrest hinner hinner'⟩

/-- `pieceAfter` may leave out a piece that leads up to nothing. -/
theorem pieceAfter_cons {ends closes : List Char → Bool} {front : List Char}
    (h : ends front = false) (pieces : List (List Char)) :
    pieceAfter ends closes (front :: pieces) = pieceAfter ends closes pieces := by
  match pieces with
  | [] => rfl
  | [_] => rfl
  | _ :: _ :: _ =>
    rw [pieceAfter, h]
    rfl

namespace FindsQuoted

variable {Leads : List Char → Prop} {ends closes : List Char → Bool}
variable {left inner more : List Char}

/-- What `matchAt?` a place remembers is the first piece behind it. -/
theorem eq_of_matchAt? (h : FindsQuoted p Leads closes) {c : Cursor} {m : Match}
    (hleft : '"' ∉ left) (hinner : '"' ∉ inner)
    (hrest : c.rest = left ++ '"' :: (inner ++ '"' :: more))
    (hm : matchAt? p bound false c = some m) :
    Leads left ∧ inner ≠ [] ∧ closes more ∧ m.group 1 = inner := by
  obtain ⟨t, ht, rfl⟩ := exists_way_of_matchAt? hm
  obtain ⟨left', inner', more', hcut, hleads, hne, hquote, hcloses, hgroup⟩ := h.sound ht
  have hrest' : c.rest = left' ++ '"' :: (inner' ++ '"' :: more') := hcut
  obtain ⟨rfl, rfl, rfl⟩ :=
    quotes_inj hleft (h.plain hleads) hinner hquote (hrest.symm.trans hrest')
  rw [Match.group_ofWay, hgroup]
  exact ⟨hleads, hne, hcloses, rfl⟩

theorem failsAt (h : FindsQuoted p Leads closes) (hleft : '"' ∉ left) (hinner : '"' ∉ inner)
    (hnot : ¬ (Leads left ∧ inner ≠ [] ∧ closes more)) :
    p.FailsAt (left ++ '"' :: (inner ++ '"' :: more)) := by
  refine .of_ways fun bound s hrest t ht => hnot ?_
  obtain ⟨left', inner', more', hcut, hleads, hne, hquote, hcloses, -⟩ := h.sound ht
  obtain ⟨rfl, rfl, rfl⟩ := quotes_inj hleft (h.plain hleads) hinner hquote (hrest.symm.trans hcut)
  exact ⟨hleads, hne, hcloses⟩

/-- Without two quotes nothing is found. -/
theorem failsAt_of_count (h : FindsQuoted p Leads closes) {text : List Char}
    (hfew : text.count '"' < 2) : p.FailsAt text := by
  refine .of_ways fun bound s hrest t ht => ?_
  obtain ⟨left, inner, more, hcut, -⟩ := h.sound ht
  rw [← hrest, hcut] at hfew
  simp only [count_append, count_cons_self] at hfew
  omega

/-- `firstAt?` in a text of three pieces or more: the second piece, or the search behind the first
quote. -/
theorem firstAt?_piece (h : FindsQuoted p Leads closes)
    (hends : ∀ piece, ends piece ↔ ∃ front left, piece = front ++ left ∧ Leads left)
    {c : Cursor} {piece : List Char} (hpiece : '"' ∉ piece) (hinner : '"' ∉ inner)
    (hrest : c.rest = piece ++ '"' :: (inner ++ '"' :: more)) :
    (p.firstAt? bound c).map (·.group 1) =
      if ends piece && !inner.isEmpty && closes more then some inner
      else (p.firstAt? bound (c.pass (piece ++ ['"']) (inner ++ '"' :: more))).map (·.group 1) := by
  have hquote : ∀ {left}, left <:+ piece → '"' ∉ left :=
    fun hleft hmem => hpiece (hleft.subset hmem)
  by_cases hfound : (ends piece && !inner.isEmpty && closes more)
  · rw [if_pos hfound]
    simp only [Bool.and_eq_true, Bool.not_eq_true', isEmpty_eq_false_iff] at hfound
    obtain ⟨⟨hend, hne⟩, hcloses⟩ := hfound
    obtain ⟨front, left, rfl, hleads⟩ := (hends piece).mp hend
    rw [append_assoc] at hrest
    refine firstAt?_map_eq hrest ?_ fun left' hleft' c' m hrest' hm => ?_
    · -- there is a way where the lead begins, hence a match
      obtain ⟨t, ht⟩ := h.complete
        (s := ⟨c.pass front (left ++ '"' :: (inner ++ '"' :: more)), []⟩) rfl hleads hne hinner
        hcloses
      cases hm : matchAt? p bound false (c.pass front (left ++ '"' :: (inner ++ '"' :: more))) with
      | some m => exact ⟨m, rfl⟩
      | none => cases advance_eq_none_iff.mp (matchAt?_eq_none_iff.mp hm) t ht
    · rw [← append_assoc] at hrest'
      obtain ⟨passed, rfl⟩ := hleft'
      exact (h.eq_of_matchAt? (hquote ⟨passed, by simp⟩) hinner hrest' hm).2.2.2
  · -- no suffix of the piece begins a match, so the search goes on behind the quote
    rw [if_neg hfound]
    have hpasses : Passes p (piece ++ ['"']) (inner ++ '"' :: more) := by
      intro left hleft hne
      rcases suffix_concat_iff.mp hleft with rfl | ⟨part, rfl, hpart⟩
      · exact absurd rfl hne
      · rw [append_assoc]
        refine h.failsAt (hquote hpart) hinner fun ⟨hleads, hnil, hcloses⟩ => hfound ?_
        obtain ⟨passed, rfl⟩ := hpart
        simp only [Bool.and_eq_true, Bool.not_eq_true', isEmpty_eq_false_iff]
        exact ⟨⟨(hends _).mpr ⟨passed, part, rfl, hleads⟩, hnil⟩, hcloses⟩
    rw [hpasses.firstAt? (by rw [hrest]; simp)]

/-- **What `firstAt?` finds in quotes** is the first piece behind a lead. -/
theorem firstAt?_pieces (h : FindsQuoted p Leads closes) (hend : p.Refuses none)
    (hends : ∀ piece, ends piece ↔ ∃ front left, piece = front ++ left ∧ Leads left)
    {pieces : List (List Char)} (hpieces : ∀ piece ∈ pieces, '"' ∉ piece) {c : Cursor}
    (hrest : c.rest = joinWith ['"'] pieces) :
    (p.firstAt? bound c).map (·.group 1) = pieceAfter ends closes pieces := by
  -- fewer than three pieces hold no text in quotes
  have hfew : ∀ c : Cursor, c.rest.count '"' < 2 → p.firstAt? bound c = none := by
    intro c hcount
    refine Passes.firstAt?_eq_none (fun left hleft _ => h.failsAt_of_count ?_) hend rfl
    rw [append_nil]
    exact Nat.lt_of_le_of_lt (hleft.sublist.count_le _) hcount
  induction pieces generalizing c with
  | nil => rw [hfew c (by rw [hrest]; decide)]; rfl
  | cons piece pieces ih =>
    have hpiece := hpieces piece mem_cons_self
    have hmore : ∀ q ∈ pieces, '"' ∉ q := fun q hq => hpieces q (mem_cons_of_mem _ hq)
    cases pieces with
    | nil =>
      have hzero : c.rest.count '"' = 0 := by rw [hrest]; exact count_eq_zero.mpr hpiece
      rw [hfew c (by omega)]
      rfl
    | cons inner pieces =>
      have hinner := hmore inner mem_cons_self
      cases pieces with
      | nil =>
        have hone : c.rest.count '"' = 1 := by
          rw [hrest, joinWith_cons_cons]
          simp [joinWith, count_eq_zero.mpr hpiece, count_eq_zero.mpr hinner]
        rw [hfew c (by omega)]
        rfl
      | cons after pieces =>
        have hcut : c.rest = piece ++ '"' ::
            (inner ++ '"' :: joinWith ['"'] (after :: pieces)) := by
          rw [hrest, joinWith_cons_cons, joinWith_cons_cons]
          simp
        have hcloses : closes (joinWith ['"'] (after :: pieces)) = closes after := by
          cases pieces with
          | nil => rfl
          | cons piece' pieces =>
            rw [joinWith_cons_cons, append_assoc]
            exact h.nearby _ (hmore after (by simp))
        rw [h.firstAt?_piece hends hpiece hinner hcut, hcloses, pieceAfter]
        congr 1
        exact ih hmore (by simp [Cursor.pass, joinWith])

end FindsQuoted

/-! ## The patterns for a path -/

theorem notAmong_quote {c : Char} : notAmong "\"" c ↔ c ≠ '"' := by
  simp [notAmong]

theorem spells_quoted (h : quoted.Spells taken groups) : ∃ inner, inner ≠ [] ∧ '"' ∉ inner ∧
    taken = '"' :: (inner ++ ['"']) ∧ groups = [(1, inner)] := by
  simp [quoted] at h
  obtain ⟨inner, ⟨⟨hne, hinner⟩, rfl⟩, rfl⟩ := h
  exact ⟨inner, hne, fun hmem => notAmong_quote.mp (hinner _ hmem) rfl, rfl, rfl⟩

theorem fits_quoted {inner : List Char} (hne : inner ≠ []) (hquote : '"' ∉ inner)
    (rest : List Char) : quoted.Fits ('"' :: (inner ++ ['"'])) rest := by
  have hinner : ∀ c ∈ inner, notAmong "\"" c :=
    fun c hc => notAmong_quote.mpr fun heq => hquote (heq ▸ hc)
  exact ((Fits.lit "\"" _).append ((Fits.many1 hne hinner _).group 1)).append (Fits.lit "\"" rest)

theorem findsQuoted_quoted : FindsQuoted quoted (· = []) fun _ => true where
  sound := by
    intro bound s t h
    obtain ⟨_, _, hspells, ⟨rest, hrest, -⟩, hgroups⟩ := spells_of_mem_ways h
    obtain ⟨inner, hne, hquote, rfl, rfl⟩ := spells_quoted hspells
    exact ⟨[], inner, rest, by simpa using hrest, rfl, hne, hquote, rfl, hgroups 1⟩
  complete := by
    rintro bound s left inner more hrest rfl hne hquote -
    obtain ⟨t, ht, -⟩ := fits_quoted hne hquote more bound s (by rw [hrest]; simp)
    exact ⟨t, ht⟩
  plain := by
    rintro left rfl
    simp
  nearby := fun _ _ => rfl

/-- How a path is given: as the only argument, or under one of two names. -/
inductive Key where
  | sole
  | value
  | path
  deriving DecidableEq, Repr

namespace Key

/-- The name a path is given under. -/
def word : Key → List Char
  | sole => []
  | value => "value".toList
  | path => "path".toList

/-- What stands between the name and the path. -/
def mark : Key → Char
  | sole => '('
  | value => '='
  | path => '='

/-- What a path in quotes is looked for after. -/
def lead : Key → Pattern
  | sole => lit "(" ++ blanks
  | value => lit "value" ++ blanks ++ lit "=" ++ blanks
  | path => lit "path" ++ blanks ++ lit "=" ++ blanks

/-- The pattern that finds a path given in this way. -/
def pattern : Key → Pattern
  | sole => sole.lead ++ quoted ++ blanks ++ lit ")"
  | value => value.lead ++ quoted
  | path => path.lead ++ quoted

theorem refuses_none (k : Key) : k.pattern.Refuses none := by
  cases k <;> exact ⟨by decide, by decide⟩

theorem isBlank_mark (k : Key) : isBlank k.mark = false := by
  cases k <;> decide

variable {k : Key} {left inner rest : List Char}

/-- The texts that a `lead` takes: the name, the mark and white space around it. Where there is no
name, there is no white space before the mark. -/
def Takes (k : Key) (text : List Char) : Prop :=
  ∃ b b', (∀ c ∈ b, isBlank c = true) ∧ (∀ c ∈ b', isBlank c = true) ∧
    (k = .sole → b = []) ∧ text = k.word ++ b ++ k.mark :: b'

theorem Takes.quote_not_mem (h : k.Takes left) : '"' ∉ left := by
  obtain ⟨b, b', hb, hb', -, rfl⟩ := h
  have hblank : ∀ {b : List Char}, (∀ c ∈ b, isBlank c) → '"' ∉ b :=
    fun hb hmem => absurd (hb _ hmem) (by decide)
  have hword : '"' ∉ k.word ∧ '"' ≠ k.mark := by
    cases k <;> decide
  simp [hword, hblank hb, hblank hb']

theorem spells_lead (h : k.lead.Spells taken groups) : k.Takes taken ∧ groups = [] := by
  cases k with
  | sole =>
    simp [lead] at h
    obtain ⟨b', hb', rfl, rfl⟩ := h
    exact ⟨⟨[], b', by simp, hb', fun _ => rfl, rfl⟩, rfl⟩
  | value | path =>
    simp [lead] at h
    obtain ⟨b, hb, b', hb', rfl, rfl⟩ := h
    exact ⟨⟨b, b', hb, hb', by simp, by simp [word, mark]⟩, rfl⟩

theorem Takes.fits (h : k.Takes left) (rest : List Char) : k.lead.Fits left rest := by
  obtain ⟨b, b', hb, hb', hsole, rfl⟩ := h
  have hkeyed : ∀ word : String,
      (lit word ++ blanks ++ lit "=" ++ blanks).Fits (word.toList ++ b ++ '=' :: b') rest := by
    intro word
    have hfits := (((Fits.lit word _).append (Fits.many hb _)).append (Fits.lit "=" _)).append
      (Fits.many hb' rest)
    rw [append_assoc (word.toList ++ b)] at hfits
    exact hfits
  cases k with
  | sole =>
    obtain rfl := hsole rfl
    exact (Fits.lit "(" _).append (Fits.many hb' rest)
  | value => exact hkeyed "value"
  | path => exact hkeyed "path"

/-- Whether what follows a path in quotes is as wanted: a path without a name needs a closing
parenthesis. -/
def closes : Key → List Char → Bool
  | sole, text => (text.dropWhile isBlank).head? == some ')'
  | value, _ => true
  | path, _ => true

theorem closes_sole_iff {text : List Char} : closes sole text ↔
      ∃ b rest, (∀ c ∈ b, isBlank c) ∧ text = b ++ ')' :: rest := by
  constructor
  · intro h
    refine ⟨text.takeWhile isBlank, (text.dropWhile isBlank).tail,
      fun c hc => mem_takeWhile_imp hc, ?_⟩
    have hhead : (text.dropWhile isBlank).head? = some ')' := beq_iff_eq.mp h
    obtain ⟨rest, hrest⟩ := head?_eq_some_iff.mp hhead
    rw [hrest, tail_cons, ← hrest, takeWhile_append_dropWhile]
  · rintro ⟨b, rest, hb, rfl⟩
    rw [closes, dropWhile_append_of_pos hb]
    rfl

theorem spells_lead_quoted (h : (k.lead ++ quoted).Spells taken groups) :
    ∃ left inner, k.Takes left ∧ inner ≠ [] ∧ '"' ∉ inner ∧
      taken = left ++ '"' :: (inner ++ ['"']) ∧ groups = [(1, inner)] := by
  obtain ⟨left, _, hlead, _, _, hquoted, rfl, rfl⟩ := h
  obtain ⟨htakes, rfl⟩ := spells_lead hlead
  obtain ⟨inner, hne, hquote, rfl, rfl⟩ := spells_quoted hquoted
  exact ⟨left, inner, htakes, hne, hquote, rfl, rfl⟩

theorem Takes.fits_quoted (h : k.Takes left) (hne : inner ≠ []) (hquote : '"' ∉ inner)
    (rest : List Char) : (k.lead ++ quoted).Fits (left ++ '"' :: (inner ++ ['"'])) rest :=
  (h.fits _).append (Java.fits_quoted hne hquote rest)

theorem findsQuoted_lead (k : Key) : FindsQuoted (k.lead ++ quoted) k.Takes fun _ => true where
  sound := by
    intro bound s t h
    obtain ⟨_, _, hspells, ⟨rest, hrest, -⟩, hgroups⟩ := spells_of_mem_ways h
    obtain ⟨left, inner, htakes, hne, hquote, rfl, rfl⟩ := spells_lead_quoted hspells
    exact ⟨left, inner, rest, by simpa using hrest, htakes, hne, hquote, rfl, hgroups 1⟩
  complete := by
    intro bound s left inner more hrest htakes hne hquote _
    obtain ⟨t, ht, -⟩ := htakes.fits_quoted hne hquote more bound s (by rw [hrest]; simp)
    exact ⟨t, ht⟩
  plain := Takes.quote_not_mem
  nearby := fun _ _ => rfl

theorem findsQuoted_pattern (k : Key) : FindsQuoted k.pattern k.Takes k.closes := by
  cases k with
  | value => exact findsQuoted_lead value
  | path => exact findsQuoted_lead path
  | sole =>
    refine ⟨?_, ?_, Takes.quote_not_mem, ?_⟩
    · intro bound s t h
      obtain ⟨_, _, ⟨_, _, ⟨_, _, hspells, b, _, hb, rfl, rfl⟩, _, _, hclose, rfl, rfl⟩,
        ⟨rest, hrest, -⟩, hgroups⟩ := spells_of_mem_ways h
      obtain ⟨left, inner, htakes, hne, hquote, rfl, rfl⟩ := spells_lead_quoted hspells
      obtain ⟨hblank, rfl⟩ := spells_blanks.mp hb
      obtain ⟨rfl, rfl⟩ := spells_lit.mp hclose
      exact ⟨left, inner, b ++ ')' :: rest, by simpa using hrest, htakes, hne, hquote,
        closes_sole_iff.mpr ⟨b, rest, hblank, rfl⟩, hgroups 1⟩
    · intro bound s left inner more hrest htakes hne hquote hcloses
      obtain ⟨b, r, hblank, rfl⟩ := closes_sole_iff.mp hcloses
      have hfits := ((htakes.fits_quoted hne hquote _).append (Fits.many hblank _)).append
        (Fits.lit ")" r)
      obtain ⟨t, ht, -⟩ := hfits bound s (by rw [hrest]; simp)
      exact ⟨t, ht⟩
    · intro piece more hquote
      rw [Bool.eq_iff_iff, closes_sole_iff, closes_sole_iff]
      constructor
      · rintro ⟨b, rest, hb, heq⟩
        have hparen : isBlank '"' = false := by decide
        obtain ⟨z, hz, hrest⟩ := exists_append_of_append_eq heq.symm hb hparen
        cases z with
        | nil => cases hrest
        | cons d z =>
          obtain ⟨rfl, -⟩ := cons.inj hrest
          exact ⟨b, z, hb, hz⟩
      · rintro ⟨b, rest, hb, rfl⟩
        exact ⟨b, rest ++ '"' :: more, hb, by simp⟩

def ends (k : Key) (piece : List Char) : Bool :=
  let marked := piece.rdropWhile isBlank
  marked.getLast? == some k.mark &&
    k.word.isSuffixOf (marked.dropLast.rdropWhile isBlank)

theorem exists_blanks_behind (text : List Char) :
    ∃ b, (∀ c ∈ b, isBlank c) ∧ text = text.rdropWhile isBlank ++ b :=
  ⟨text.rtakeWhile isBlank, fun _ hc => mem_rtakeWhile_imp hc,
    (rdropWhile_append_rtakeWhile ..).symm⟩

theorem rdropWhile_append {text b : List Char} (hb : ∀ c ∈ b, isBlank c)
    (htext : text.getLast?.any isBlank = false) : (text ++ b).rdropWhile isBlank = text := by
  rw [rdropWhile, reverse_append, dropWhile_append_of_pos fun c hc => hb c (mem_reverse.mp hc),
    dropWhile_of_head (by rw [head?_reverse]; exact htext), reverse_reverse]

theorem getLast?_append_word (hne : k ≠ .sole) (front : List Char) :
    (front ++ k.word).getLast?.any isBlank = false := by
  cases k with
  | sole => exact absurd rfl hne
  | value | path => rw [getLast?_append_of_ne_nil _ (by decide)]; decide

/-- `ends`: the last character of a piece that is not white space is the `mark`, and what stands
before it ends in the name. -/
theorem ends_append {front b : List Char} {d : Char} (hd : isBlank d = false)
    (hb : ∀ c ∈ b, isBlank c) : k.ends (front ++ d :: b) =
      (d == k.mark && k.word.isSuffixOf (front.rdropWhile isBlank)) := by
  have hcut : (front ++ d :: b).rdropWhile isBlank = front ++ [d] := by
    rw [← singleton_append, ← append_assoc]
    exact rdropWhile_append hb (by simp [hd])
  simp [ends, hcut]

theorem ends_iff (k : Key) (piece : List Char) :
    k.ends piece ↔ ∃ front left, piece = front ++ left ∧ k.Takes left := by
  constructor
  · intro h
    simp only [ends, Bool.and_eq_true, beq_iff_eq, isSuffixOf_iff_suffix] at h
    obtain ⟨hmark, hword⟩ := h
    obtain ⟨marked, hmarked⟩ := getLast?_eq_some_iff.mp hmark
    obtain ⟨b', hb', hpiece⟩ := exists_blanks_behind piece
    obtain ⟨b, hb, hfront⟩ := exists_blanks_behind marked
    rw [hmarked, dropLast_concat] at hword
    rw [hmarked] at hpiece
    by_cases hsole : k = .sole
    · subst hsole
      refine ⟨marked, '(' :: b', ?_, [], b', by simp, hb', fun _ => rfl, rfl⟩
      rw [hpiece]
      simp [mark]
    · obtain ⟨front, hfront'⟩ := hword
      rw [← hfront'] at hfront
      refine ⟨front, _, ?_, b, b', hb, hb', fun h => absurd h hsole, rfl⟩
      rw [hpiece, hfront]
      simp
  · rintro ⟨front, left, rfl, b, b', hb, hb', hsole, rfl⟩
    rw [← append_assoc, ends_append k.isBlank_mark hb', beq_self_eq_true, Bool.true_and]
    by_cases hk : k = .sole
    · subst hk
      rfl
    · rw [← append_assoc, rdropWhile_append hb (getLast?_append_word hk front)]
      exact isSuffixOf_iff_suffix.mpr (suffix_append _ _)

/-- A piece without the `mark` leads up to nothing. -/
theorem ends_eq_false {piece : List Char} (h : k.mark ∉ piece) : k.ends piece = false := by
  rw [Bool.eq_false_iff]
  intro hends
  obtain ⟨front, left, rfl, b, b', -, -, -, rfl⟩ := (k.ends_iff piece).mp hends
  simp at h

/-- A word is found at the end of a key, not across its beginning. -/
theorem isSuffixOf_append {word key front : List Char} {d : Char} (hd : d ∉ word) :
    word.isSuffixOf (front ++ [d] ++ key) = word.isSuffixOf key := by
  rw [Bool.eq_iff_iff, isSuffixOf_iff_suffix, isSuffixOf_iff_suffix]
  constructor
  · intro h
    rcases suffix_or_suffix_of_suffix h (suffix_append (front ++ [d]) key) with h' | h'
    · exact h'
    · obtain ⟨more, rfl⟩ := h'
      rcases eq_nil_or_concat more with rfl | ⟨more, e, rfl⟩
      · exact suffix_rfl
      · -- the word would reach over the character before the key
        obtain ⟨passed, hpassed⟩ := h
        have hcut : passed ++ more ++ [e] = front ++ [d] := by
          have hwhole : passed ++ more ++ [e] ++ key = front ++ [d] ++ key := by
            simpa using hpassed
          exact append_cancel_right hwhole
        have hlast : e = d := by
          have hgets := congrArg getLast? hcut
          simpa using hgets
        exact absurd (by simp [hlast]) hd
  · intro h
    exact h.trans (suffix_append _ _)

/-- A piece with a key at its end leads up to the value exactly if the key ends in the name. -/
theorem ends_named (k : Key) {key : List Char} (hne : key ≠ [])
    (hkey : ∀ c ∈ key, isBlank c = false) (front : List Char) {d : Char} (hd : d = '(' ∨ d = ' ') :
    k.ends (front ++ [d] ++ key ++ " = ".toList) = (k != .sole && k.word.isSuffixOf key) := by
  have hword : d ∉ k.word := by
    rcases hd with rfl | rfl <;> cases k <;> decide
  have hlast : (front ++ [d] ++ key).getLast?.any isBlank = false := by
    rw [getLast?_append_of_ne_nil _ hne]
    exact (Firm.of_forall hkey).last
  have hends : k.ends (front ++ [d] ++ key ++ [' '] ++ '=' :: [' ']) = _ :=
    ends_append (by decide) (by decide)
  rw [rdropWhile_append (by decide) hlast, isSuffixOf_append hword] at hends
  have hpiece : front ++ [d] ++ key ++ " = ".toList =
      front ++ [d] ++ key ++ [' '] ++ '=' :: [' '] := by simp
  rw [hpiece, hends]
  cases k <;> rfl

/-- The path that is looked for in this way among the pieces of a text. -/
def pieceAfter (k : Key) (pieces : List (List Char)) : Option (List Char) :=
  Java.pieceAfter k.ends k.closes pieces

end Key

theorem pathPatterns_eq :
    pathPatterns = [Key.path.pattern, Key.value.pattern, Key.sole.pattern, quoted] := rfl

def pathAmong (pieces : List (List Char)) : Option (List Char) :=
  (Key.path.pieceAfter pieces).or <| (Key.value.pieceAfter pieces).or <|
    (Key.sole.pieceAfter pieces).or <| pieceAfter (fun _ => true) (fun _ => true) pieces

/-- **`annotationPath?` of any text** is the piece between quotes that `pathAmong` selects,
trimmed. -/
theorem annotationPath?_eq (text : List Char) :
    annotationPath? text = (pathAmong (splitAt '"' text)).map trim := by
  have hpieces : ∀ piece ∈ splitAt '"' text, '"' ∉ piece :=
    fun piece hpiece => not_mem_of_mem_splitAt hpiece
  have hjoin := (joinWith_splitAt '"' text).symm
  have hkey : ∀ k : Key, (k.pattern.find? text).map (·.group 1) =
      k.pieceAfter (splitAt '"' text) := by
    intro k
    rw [find?_eq_firstAt?]
    exact k.findsQuoted_pattern.firstAt?_pieces k.refuses_none k.ends_iff hpieces hjoin
  have hany : (quoted.find? text).map (·.group 1) =
      pieceAfter (fun _ => true) (fun _ => true) (splitAt '"' text) := by
    rw [find?_eq_firstAt?]
    refine findsQuoted_quoted.firstAt?_pieces ⟨by decide, by decide⟩ (fun piece => ?_) hpieces hjoin
    simp
  have hchosen : ((pathPatterns.findSome? fun p => p.find? text).map (·.group 1)) =
      pathAmong (splitAt '"' text) := by
    rw [pathAmong, ← hkey, ← hkey, ← hkey, ← hany, pathPatterns_eq]
    simp only [findSome?_cons, findSome?_nil]
    cases Key.path.pattern.find? text with
    | some m => rfl
    | none =>
      cases Key.value.pattern.find? text with
      | some m => rfl
      | none =>
        cases Key.sole.pattern.find? text with
        | some m => rfl
        | none => cases quoted.find? text <;> rfl
  rw [annotationPath?, ← hchosen, Option.map_map]
  rfl

end Java

end CodeAtlas
