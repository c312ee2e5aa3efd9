import CodeAtlas.Proofs.Overlooking
import Mathlib.Data.List.TakeWhile

/-!
# Declarations at the margin

Most declarations are looked for at the margin: at the start of a line, after white space that may
run over blank lines. Such a pattern does not match in the middle of a line. So a character put
before a text hides its first line: what is found at the margin is what is found in the lines after
the first (`AtMargin.sameFound_afterFirstLine`). If the first line is blank, or nothing matches at
the start of the text, then everything is found that was found before (`AtMargin.sameFound_append`).
The matches may begin elsewhere, with more or less white space before the declaration, but their
groups are the same.
-/

open List

namespace CodeAtlas.Pattern

open Outline Text Cursor

/-! ## White space -/

/-- The characters of `isBlank`, listed. -/
def blankChars : List Char :=
  (range' 0x9 5 ++ range' 0x1c 5 ++ range' 0x2000 11 ++
    [0x85, 0xa0, 0x1680, 0x2028, 0x2029, 0x202f, 0x205f, 0x3000]).map Char.ofNat

theorem mem_blankChars {c : Char} (h : isBlank c) : c ∈ blankChars := by
  simp only [isBlank, Bool.or_eq_true, Bool.and_eq_true, decide_eq_true_eq, beq_iff_eq] at h
  refine mem_map.mpr ⟨c.toNat, ?_, Char.ofNat_toNat c⟩
  simp only [mem_append, mem_range'_1, mem_cons, not_mem_nil, or_false]
  omega

/-! ## Patterns at the margin -/

/-- What a pattern for declarations looks for after the margin. -/
def declaration (p : Pattern) : Pattern :=
  p.trail.trail

/-- Whether a pattern has no edges and begins neither with white space nor at the end of a text. -/
def beginsVisibly (q : Pattern) : Bool :=
  q.edgeless && !q.skips && !q.takes none &&
    q.heads.all fun accepts => blankChars.all fun c => !accepts c

/-- A pattern that matches at the margin of a line, what follows there being no white space. -/
structure AtMargin (p : Pattern) : Prop where
  lead : p.lead = lineStart
  second : p.trail.lead = blanks
  visible : p.declaration.beginsVisibly = true

section AtMargin

variable {p : Pattern} (hp : AtMargin p)

include hp

theorem AtMargin.advance_eq (bound : Nat) (next : State → Option State) :
    advance bound p next = advance bound margin (advance bound p.declaration next) := by
  rw [advance_lead_trail, hp.lead, advance_lead_trail bound p.trail, hp.second]
  rfl

theorem AtMargin.refuses {c : Char} (hc : isBlank c) : p.declaration.Refuses (some c) := by
  have hvisible := hp.visible
  simp only [beginsVisibly, Bool.and_eq_true, all_eq_true, Bool.not_eq_true'] at hvisible
  refine ⟨?_, hvisible.1.1.2⟩
  rw [takes_eq_any_heads, any_eq_false]
  intro accepts haccepts
  simpa using hvisible.2 accepts haccepts c (mem_blankChars hc)

theorem AtMargin.refuses_none : p.declaration.Refuses none := by
  have hvisible := hp.visible
  simp only [beginsVisibly, Bool.and_eq_true, Bool.not_eq_true'] at hvisible
  exact ⟨hvisible.1.2, hvisible.1.1.2⟩

theorem AtMargin.skips : p.declaration.skips = false :=
  hp.refuses_none.skips

theorem AtMargin.blind_declaration (near : Option Char → Option Char → Prop) :
    Blind near p.declaration := by
  have hvisible := hp.visible
  simp only [beginsVisibly, Bool.and_eq_true] at hvisible
  exact blind_of_edgeless hvisible.1.1.1

/-- `lineStart` is the only edge, and it holds at the start of a text as well. -/
theorem AtMargin.blind : Blind (Beside '\n') p := by
  refine blind_lead_trail ?_ (blind_lead_trail ?_ (hp.blind_declaration _))
  · rw [hp.lead]
    exact blind_lineStart
  · rw [hp.second]
    trivial

theorem AtMargin.anchored : Anchored p :=
  anchored_of_lead hp.lead

/-- At the start of a line the `margin` takes the white space as a whole. -/
theorem AtMargin.advance_lineStart {bound : Nat} {next : State → Option State} {s : State}
    {v r : List Char} (hstart : s.cursor.AtLineStart) (hrest : s.cursor.rest = v ++ r)
    (hv : ∀ c ∈ v, isBlank c) (hr : r.head?.any isBlank = false) :
    advance bound p next s = advance bound p.declaration next (s.pass v r) := by
  rw [hp.advance_eq, margin, advance_append, Pattern.advance_lineStart hstart]
  exact advance_many_eq hrest hv hr fun c hc _ ht => (ht ▸ hp.refuses (hv c hc)).advance_eq_none

theorem AtMargin.findAll_nil : p.findAll [] = [] := by
  refine searchFrom_eq_nil (c := start []) fun taken rest hparts =>
    matchAt?_eq_none_iff.mpr ?_
  obtain ⟨rfl, rfl⟩ := append_eq_nil_iff.mp hparts.symm
  have hstart : (Cursor.pass (start []) [] []).AtLineStart := .inl rfl
  rw [hp.advance_lineStart hstart (v := []) (r := []) rfl (by simp) rfl]
  exact hp.refuses_none.advance_eq_none

end AtMargin

/-! ## The same found in two texts -/

/-- The matches in two texts are as many, and their groups remember the same. -/
def SameFound (p : Pattern) (text text' : List Char) : Prop :=
  (p.findAll text').map Match.group? = (p.findAll text).map Match.group?

theorem map_group?_move (k : Nat) (ms : List Match) :
    (ms.map (Match.move k)).map Match.group? = ms.map Match.group? := by
  rw [map_map]
  exact map_congr_left fun m _ => funext (Match.group?_move k m)

section SameFound

variable {p : Pattern} {text text' : List Char}

theorem SameFound.symm (h : SameFound p text text') : SameFound p text' text :=
  Eq.symm h

theorem SameFound.trans {text'' : List Char} (h : SameFound p text text')
    (h' : SameFound p text' text'') : SameFound p text text'' :=
  Eq.trans h' h

theorem sameFound_of_move {k : Nat}
    (h : p.findAll text' = (p.findAll text).map (Match.move k)) : SameFound p text text' := by
  rw [SameFound, h, map_group?_move]

theorem SameFound.map (h : SameFound p text text') {β : Type}
    (read : (Nat → Option (List Char)) → β) : (p.findAll text').map (fun m => read m.group?) =
      (p.findAll text).map fun m => read m.group? := by
  have hmap := congrArg (List.map read) h
  rwa [map_map, map_map] at hmap

theorem SameFound.collectTexts (h : SameFound p text text') (index : Nat) :
    Outline.collectTexts p index text' = Outline.collectTexts p index text := by
  rw [Outline.collectTexts, Outline.collectTexts]
  exact congrArg _ (h.map fun group => (group index).getD [])

theorem SameFound.collectFunctions (h : SameFound p text text') :
    Outline.collectFunctions p text' = Outline.collectFunctions p text := by
  rw [Outline.collectFunctions, Outline.collectFunctions]
  exact h.map fun group =>
    (⟨String.ofList ((group 1).getD []), paramList ((group 2).getD [])⟩ : Function)

theorem SameFound.find? (h : SameFound p text text') {β : Type}
    (read : (Nat → Option (List Char)) → β) :
    (p.find? text').map (fun m => read m.group?) = (p.find? text).map fun m => read m.group? := by
  rw [find?_eq_head?, find?_eq_head?, ← head?_map, ← head?_map, h.map read]

end SameFound

/-! ## Two margins before one text -/

section Front

variable {p : Pattern}
variable {bound : Nat} {c : Cursor} {w line : List Char}

/-- `searchFrom` passes over white space after which nothing is declared. -/
theorem AtMargin.searchFrom_blanks (hp : AtMargin p) {v r : List Char} (hrest : c.rest = v ++ r)
    (hv : ∀ c ∈ v, isBlank c) (hr : r.head?.any isBlank = false)
    (hnone : advance bound p.declaration some ⟨c.pass v r, []⟩ = none) :
    searchFrom p bound c = searchFrom p bound (c.pass v r) := by
  refine searchFrom_skip hrest fun passed d between hparts => matchAt?_eq_none_iff.mpr ?_
  by_cases hstart : (c.pass passed (d :: between ++ r)).AtLineStart
  · rw [hp.advance_lineStart hstart rfl
      (fun e he => hv e (by rw [hparts]; exact mem_append_right _ he)) hr]
    show advance bound p.declaration some
      ⟨(c.pass passed (d :: between ++ r)).pass (d :: between) r, []⟩ = none
    rw [pass_pass, ← hparts]
    exact hnone
  · exact hp.anchored bound some _ hstart

/-- `searchFrom` the start of a line finds the same declarations, whatever white space stands before
the rest of the text. -/
theorem AtMargin.searchFrom_group? (hp : AtMargin p) {k n bound' : Nat} (hbound : n ≤ bound)
    (hbound' : n ≤ bound') {c' : Cursor} (hstart : c.AtLineStart) (hstart' : c'.AtLineStart)
    {v v' r : List Char} (hrest : c.rest = v ++ r) (hrest' : c'.rest = v' ++ r)
    (hv : ∀ c ∈ v, isBlank c) (hv' : ∀ c ∈ v', isBlank c) (hr : r.head?.any isBlank = false)
    (hmoved : ∀ taken rest, r = taken ++ rest →
      Moved (Beside '\n') k n ⟨c.pass (v ++ taken) rest, []⟩ ⟨c'.pass (v' ++ taken) rest, []⟩) :
    (searchFrom p bound' c').map Match.group? = (searchFrom p bound c).map Match.group? := by
  have hnear := Beside.refl '\n'
  have hhere : Moved (Beside '\n') k n ⟨c.pass v r, []⟩ ⟨c'.pass v' r, []⟩ := by
    have := hmoved [] r rfl
    rwa [append_nil, append_nil] at this
  have hmatch : advance bound p some ⟨c, []⟩ = advance bound p.declaration some ⟨c.pass v r, []⟩ :=
    hp.advance_lineStart hstart hrest hv hr
  have hmatch' : advance bound' p some ⟨c', []⟩ =
      advance bound' p.declaration some ⟨c'.pass v' r, []⟩ :=
    hp.advance_lineStart hstart' hrest' hv' hr
  have hrel := advance_moved hnear hbound hbound' (hp.blind_declaration _) (fun _ _ ht => .some ht)
    _ _ hhere
  generalize hX : advance bound p.declaration some ⟨c.pass v r, []⟩ = X at hrel
  generalize hX' : advance bound' p.declaration some ⟨c'.pass v' r, []⟩ = X' at hrel
  cases hrel with
  | none =>
    rw [hp.searchFrom_blanks hrest hv hr hX, hp.searchFrom_blanks hrest' hv' hr hX',
      searchFrom_moved hnear hbound hbound' hp.blind hhere, map_group?_move]
  | @some t t' ht =>
    -- the declaration takes something, and the searches go on after it
    obtain ⟨u, taken, ⟨rest, hparts, hu⟩, hsome, hallows⟩ := reaches_of_advance hX
    have hne := ne_nil_of_allows hp.skips hallows
    obtain rfl : u = t := Option.some.inj hsome
    have hparts' : r = taken ++ rest := hparts
    have hcursor : u.cursor = c.pass (v ++ taken) rest := by
      rw [hu]
      exact pass_pass _ _ _ _ _
    have hafter := hmoved taken rest hparts'
    have hstop : u.cursor.position = c.position + (v ++ taken).length := by
      rw [hcursor]
      rfl
    have hstop' : t'.cursor.position = c'.position + (v' ++ taken).length := by
      rw [ht.position, hcursor]
      exact hafter.position.symm
    rw [searchFrom_of_some (m := ⟨c.position, u.cursor.position, c.rest, u.captures⟩)
        (by rw [append_assoc, ← hparts']; exact hrest) (by simp [hne])
        (by rw [matchAt?_eq, hmatch, hX]; rfl) hstop,
      searchFrom_of_some (m := ⟨c'.position, t'.cursor.position, c'.rest, t'.captures⟩)
        (by rw [append_assoc, ← hparts']; exact hrest') (by simp [hne])
        (by rw [matchAt?_eq, hmatch', hX']; rfl) hstop',
      searchFrom_moved hnear hbound hbound' hp.blind hafter, map_cons, map_cons,
      map_group?_move]
    refine congrArg (· :: _) (funext fun index => ?_)
    show (t'.captures.lookup index).map Capture.text = (u.captures.lookup index).map Capture.text
    rw [ht.captures, lookup_moveCaptures, Option.map_map]
    rfl

/-- A place in the last part of a text, which follows a line feed there. -/
theorem moved_pass_of_feed {c' : Cursor} {k n : Nat} {taken rest : List Char}
    (hbefore : c.before = none) (hposition : c'.position + (w ++ ['\n']).length = c.position + k)
    (htotal : c.position + (taken ++ rest).length = n) :
    Moved (Beside '\n') k n ⟨c.pass taken rest, []⟩ ⟨c'.pass (w ++ '\n' :: taken) rest, []⟩ := by
  refine ⟨?_, ?_, rfl, rfl, ?_⟩
  · rcases eq_nil_or_concat taken with rfl | ⟨init, e, rfl⟩
    · exact .inr ⟨hbefore, by simp [Cursor.pass]⟩
    · have hlast : (w ++ '\n' :: init ++ [e]).getLast? = some e := getLast?_concat
      rw [append_assoc, cons_append] at hlast
      exact .inl (by simp only [Cursor.pass, concat_eq_append, hlast, getLast?_concat,
        Option.some_or])
  · simp only [Cursor.pass, length_append, length_cons, length_nil] at hposition ⊢
    omega
  · simp only [Cursor.pass, length_append] at htotal ⊢
    omega

/-- A blank first line hides nothing. -/
theorem AtMargin.sameFound_of_blank (hp : AtMargin p) (hw : ∀ c ∈ w, isBlank c) (r : List Char) :
    SameFound p r (w ++ '\n' :: r) := by
  obtain ⟨v, r, rfl, hv, hr⟩ : ∃ v r', r = v ++ r' ∧ (∀ c ∈ v, isBlank c) ∧
      r'.head?.any isBlank = false :=
    ⟨_, _, takeWhile_append_dropWhile.symm, fun _ => mem_takeWhile_imp,
      head?_dropWhile _ _⟩
  have hw' : ∀ c ∈ w ++ '\n' :: v, isBlank c := by
    intro c hc
    rw [mem_append, mem_cons] at hc
    rcases hc with hc | rfl | hc
    · exact hw c hc
    · rfl
    · exact hv c hc
  have hrest : (start (w ++ '\n' :: (v ++ r))).rest = (w ++ '\n' :: v) ++ r := by
    simp [start]
  rw [SameFound, findAll_eq_searchFrom, findAll_eq_searchFrom]
  refine hp.searchFrom_group? (k := (w ++ ['\n']).length) (Nat.le_refl _) (by simp; omega)
    (.inl rfl) (.inl rfl) rfl hrest hv hw' hr fun taken rest hparts => ?_
  subst hparts
  rw [append_assoc w]
  exact moved_pass_of_feed rfl (by simp [start]) (by simp [start])

/-! ## What stands before a text -/

def FirstLineBlank (code : List Char) : Prop :=
  ∃ w r, code = w ++ '\n' :: r ∧ ∀ c ∈ w, isBlank c = true ∧ c ≠ '\n'

def afterFirstLine (code : List Char) : List Char :=
  (code.dropWhile inLine).tail

theorem afterFirstLine_append (h : '\n' ∉ line) (rest : List Char) :
    afterFirstLine (line ++ '\n' :: rest) = rest := by
  have hline : ∀ c ∈ line, inLine c := by
    intro c hc
    exact bne_iff_ne.mpr fun heq => h (heq ▸ hc)
  rw [afterFirstLine, dropWhile_append_of_pos hline]
  rfl

theorem afterFirstLine_of_not_mem {code : List Char} (h : '\n' ∉ code) :
    afterFirstLine code = [] := by
  have hline : ∀ c ∈ code, inLine c := by
    intro c hc
    exact bne_iff_ne.mpr fun heq => h (heq ▸ hc)
  rw [afterFirstLine, dropWhile_eq_nil_iff.mpr hline]
  rfl

variable {front : List Char} {x : Char} {code : List Char}

theorem not_atLineStart_of_last (hx : x ≠ '\n') (front : List Char) (c : Cursor)
    (rest : List Char) : ¬ (c.pass (front ++ [x]) rest).AtLineStart := by
  rintro (hnone | hfeed)
  · simp [Cursor.pass] at hnone
  · have : x = '\n' := by simpa [Cursor.pass] using hfeed
    exact hx this

/-- Behind another text, `searchFrom` passes over the first line. -/
theorem Anchored.searchFrom_first_line (hp : Anchored p) (hx : x ≠ '\n') (front : List Char)
    (hline : '\n' ∉ line) (r : List Char) (c : Cursor) (bound : Nat) :
    searchFrom p bound (c.pass (front ++ [x]) (line ++ '\n' :: r)) =
      searchFrom p bound ((c.pass (front ++ [x]) (line ++ '\n' :: r)).pass (line ++ ['\n']) r) := by
  have hstart := not_atLineStart_of_last hx front c (line ++ '\n' :: r)
  have hend :
      ¬ ((c.pass (front ++ [x]) (line ++ '\n' :: r)).pass line ('\n' :: r)).AtLineStart := by
    by_cases hempty : line = []
    · subst hempty
      exact hstart
    · exact not_atLineStart_pass hempty hline _ _
  have hfeed := searchFrom_of_none
    (c := (c.pass (front ++ [x]) (line ++ '\n' :: r)).pass line ('\n' :: r))
    rfl (matchAt?_eq_none_iff.mpr (hp bound some _ hend))
  rw [hp.searchFrom_line hstart hline rfl, hfeed, pass_pass]

/-- **What stands before a text hides its first line** from a pattern `AtMargin`. -/
theorem AtMargin.sameFound_afterFirstLine (hp : AtMargin p) (hx : x ≠ '\n')
    (hover : PassesOver p (front ++ [x]) code) :
    SameFound p (afterFirstLine code) (front ++ [x] ++ code) := by
  by_cases hfeed : '\n' ∈ code
  · obtain ⟨line, rest, hcode, hline⟩ := eq_append_cons_of_mem hfeed
    subst hcode
    rw [afterFirstLine_append hline]
    have hskip := hp.anchored.searchFrom_first_line hx front hline rest
      (start (front ++ [x] ++ (line ++ '\n' :: rest)))
      (front ++ [x] ++ (line ++ '\n' :: rest)).length
    refine sameFound_of_move (k := (front ++ [x] ++ (line ++ ['\n'])).length) ?_
    rw [hover.findAll, hskip, findAll_eq_searchFrom]
    refine searchFrom_moved (Beside.refl '\n') (Nat.le_refl _) (by simp; omega) hp.blind ?_
    refine ⟨.inr ⟨rfl, by simp [Cursor.pass]⟩, ?_, rfl, rfl, ?_⟩
    · simp [Cursor.pass, start]
      omega
    · simp [start]
  · have hnone : p.findAll (front ++ [x] ++ code) = [] := by
      rw [hover.findAll]
      refine searchFrom_eq_nil fun taken rest hparts => matchAt?_eq_none_iff.mpr ?_
      refine hp.anchored _ some _ ?_
      by_cases hempty : taken = []
      · subst hempty
        exact not_atLineStart_of_last hx front _ _
      · refine not_atLineStart_pass hempty (fun hmem => hfeed ?_) _ _
        have hparts' : code = taken ++ rest := hparts
        rw [hparts']
        exact mem_append_left _ hmem
    rw [SameFound, hnone, afterFirstLine_of_not_mem hfeed, hp.findAll_nil]

/-- Where nothing matches at the start of a text, `findAll` has the same matches behind another. -/
theorem Anchored.findAll_append (hp : Anchored p) (hx : x ≠ '\n')
    (hover : PassesOver p (front ++ [x]) code) (hnone : p.matchStart? code = none) :
    p.findAll (front ++ [x] ++ code) = (p.findAll code).map (Match.move (front ++ [x]).length) := by
  rw [hover.findAll, findAll_eq_searchFrom]
  have hstart := not_atLineStart_of_last hx front (start (front ++ [x] ++ code)) code
  have hnone' : matchAt? p (front ++ [x] ++ code).length false
      ((start (front ++ [x] ++ code)).pass (front ++ [x]) code) = none :=
    matchAt?_eq_none_iff.mpr (hp _ _ _ hstart)
  cases code with
  | nil =>
    have hnil : ∀ {bound : Nat} {c : Cursor}, c.rest = [] → matchAt? p bound false c = none →
        searchFrom p bound c = [] := by
      intro bound c hrest hmatch
      refine searchFrom_eq_nil fun taken rest hsplit => ?_
      rw [hrest] at hsplit
      obtain ⟨rfl, rfl⟩ := append_eq_nil_iff.mp hsplit.symm
      have hc : c.pass [] c.rest = c := pass_nil c
      rw [hrest] at hc
      rw [hc]
      exact hmatch
    rw [hnil rfl hnone', hnil rfl hnone]
    rfl
  | cons d rest =>
    rw [searchFrom_of_none rfl hnone', searchFrom_of_none rfl hnone]
    refine searchFrom_moved (fun _ => rfl) (Nat.le_refl (d :: rest).length) (by simp; omega)
      (blind_eq p) ⟨rfl, ?_, rfl, rfl, ?_⟩
    · simp [Cursor.pass, start]
      omega
    · simp [Cursor.pass, start]
      omega

/-- **Nothing is hidden** if the first line of the text is blank or nothing matches at its start. -/
theorem AtMargin.sameFound_append (hp : AtMargin p) (hx : x ≠ '\n')
    (hover : PassesOver p (front ++ [x]) code)
    (h : FirstLineBlank code ∨ p.matchStart? code = none) :
    SameFound p code (front ++ [x] ++ code) := by
  rcases h with ⟨w, r, hcode, hw⟩ | hnone
  · have hline : '\n' ∉ w := fun hmem => (hw _ hmem).2 rfl
    have hfound := hp.sameFound_afterFirstLine hx hover
    rw [hcode, afterFirstLine_append hline, ← hcode] at hfound
    refine SameFound.trans ?_ hfound
    rw [hcode]
    exact (hp.sameFound_of_blank (fun c hc => (hw c hc).1) r).symm
  · exact sameFound_of_move (hp.anchored.findAll_append hx hover hnone)

end Front

end CodeAtlas.Pattern
