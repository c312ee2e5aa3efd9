import CodeAtlas.Outline.JavaScript
import CodeAtlas.Proofs.Words

/-!
# The documentation comment before a position

The comment before a position is looked for from the left, in the thousand characters before it, and
has to reach up to the position but for white space. The search stops at the first opening mark from
which some closing mark can be reached, and the closing mark that is reached is the last one. So the
result begins at the first opening mark of all (`docBefore?_eq_some_iff`), whatever closing marks,
code and further comments stand after it, and it is one comment exactly if nothing but the last
closing mark stands there (`closedOnce_iff`).
-/

open List

namespace CodeAtlas.JavaScript

open Pattern Text

variable {before doc gap text : List Char}

/-- A text from an opening to a closing mark of documentation, which do not overlap. -/
def IsDoc (text : List Char) : Prop :=
  ∃ inner, text = "/**".toList ++ inner ++ "*/".toList

/-- A text has a closing mark at its end and nowhere else. -/
def ClosedOnce (text : List Char) : Prop :=
  ∀ x y, text = x ++ "*/".toList ++ y → y = []

/-- Only white space. -/
def Blank (text : List Char) : Prop :=
  ∀ c ∈ text, isBlank c = true

/-- What stands in the thousand characters before a position. -/
def window (code : List Char) (position : Nat) : List Char :=
  (code.take position).drop (position - 1000)

theorem slice_eq_window (code : List Char) (position : Nat) :
    slice code (max 0 ((position : Int) - 1000)) position = window code position := by
  have hstart : (max 0 ((position : Int) - 1000)).toNat = position - 1000 := by omega
  have hstop : ¬ (position : Int) < 0 := by omega
  rw [slice, window, hstart]
  simp [hstop]

/-! ## Places where a comment begins that reaches to the end -/

/-- A comment and white space after it. -/
def DocToEnd (text : List Char) : Prop :=
  ∃ doc gap, text = doc ++ gap ∧ IsDoc doc ∧ Blank gap

variable {bound position : Nat} {c : Cursor} {m : Match} {code : List Char}

theorem docToEnd_of_mem_ways {s t : State} (h : t ∈ ways bound finalDocPattern s) :
    DocToEnd s.cursor.rest ∧ t.cursor = s.cursor.pass s.cursor.rest [] := by
  have hparts : t ∈ ways bound
      (lit "/**" ++ fewest anyChar ++ lit "*/" ++ blanks ++ textEnd) s := h
  simp only [mem_ways_append, mem_ways_lit, mem_ways_fewest, blanks, mem_ways_many, textEnd,
    mem_ways_edge] at hparts
  obtain ⟨_, ⟨_, ⟨_, ⟨_, ⟨rest₁, hopen, rfl⟩, inner, rest₂, ⟨hinner, -⟩, rfl⟩, rest₃, hclose, rfl⟩,
    gap, rest₄, ⟨hgap, hblank⟩, rfl⟩, hend, rfl⟩ := hparts
  have hinner : rest₁ = inner ++ rest₂ := hinner
  have hclose : rest₂ = "*/".toList ++ rest₃ := hclose
  have hgap : rest₃ = gap ++ rest₄ := hgap
  have hnil : rest₄ = [] := by simpa [State.pass, Cursor.pass] using hend
  have hrest : s.cursor.rest = "/**".toList ++ inner ++ "*/".toList ++ gap := by
    rw [hopen, hinner, hclose, hgap, hnil]
    simp
  refine ⟨⟨_, gap, hrest, ⟨inner, rfl⟩, hblank⟩, ?_⟩
  simp only [hrest, State.pass_pass, hnil, append_assoc]
  rfl

theorem DocToEnd.fits (h : DocToEnd text) : finalDocPattern.Fits text [] := by
  obtain ⟨doc, gap, rfl, ⟨inner, rfl⟩, hblank⟩ := h
  have hfewest : ∀ rest, (fewest anyChar).Fits inner rest := fun rest _ s hrest =>
    ⟨s.pass inner rest, mem_ways_fewest.mpr ⟨inner, rest, ⟨hrest, fun _ _ => rfl⟩, rfl⟩, rfl⟩
  have hend : textEnd.Fits [] [] := fun _ s hrest =>
    ⟨s, mem_ways_edge.mpr ⟨by rw [hrest]; rfl, rfl⟩, hrest⟩
  have hall := ((((Fits.lit "/**" _).append (hfewest _)).append (.lit "*/" _)).append
    (.many hblank _)).append hend
  rwa [append_nil] at hall

/-- `finalDocPattern` matches at a place exactly if a comment begins there that reaches to the end,
and the match is all that follows. -/
theorem matchAt?_finalDoc_eq_none_iff :
    matchAt? finalDocPattern bound false c = none ↔ ¬ DocToEnd c.rest := by
  constructor
  · intro hnone hdoc
    obtain ⟨t, -, hmatch⟩ := hdoc.fits.matchAt? bound (append_nil c.rest).symm
    rw [hnone] at hmatch
    cases hmatch
  · intro hdoc
    cases hmatch : matchAt? finalDocPattern bound false c with
    | none => rfl
    | some m =>
      obtain ⟨t, ht, -⟩ := exists_way_of_matchAt? hmatch
      exact absurd (docToEnd_of_mem_ways ht).1 hdoc

theorem text_of_matchAt?_finalDoc (h : matchAt? finalDocPattern bound false c = some m) :
    m.text = c.rest := by
  obtain ⟨t, ht, rfl⟩ := exists_way_of_matchAt? h
  obtain ⟨-, hcursor⟩ := docToEnd_of_mem_ways ht
  exact Match.text_ofWay ⟨[], (append_nil c.rest).symm, hcursor⟩

/-! ## The first opening mark -/

theorem trim_doc_append (hdoc : IsDoc doc) (hgap : Blank gap) : trim (doc ++ gap) = doc := by
  obtain ⟨inner, rfl⟩ := hdoc
  have hfirm : Firm isBlank ("/**".toList ++ inner ++ "*/".toList) := by
    refine ⟨rfl, ?_⟩
    rw [getLast?_append_of_ne_nil _ (by decide)]
    rfl
  have htrim := trimBoth_enclosed [] gap (by simp) hgap hfirm
  rwa [nil_append] at htrim

/-- From an earlier opening mark the end is reached as well. -/
theorem DocToEnd.of_suffix {rest : List Char} (h : DocToEnd rest)
    (htext : "/**".toList ++ text = before ++ rest) : DocToEnd ("/**".toList ++ text) := by
  obtain ⟨doc, gap, rfl, ⟨inner, rfl⟩, hblank⟩ := h
  have htail : "*/".toList ++ gap <:+ text := by
    have hsuffix : "*/".toList ++ gap <:+ "/**".toList ++ text := by
      rw [htext]
      exact ⟨before ++ "/**".toList ++ inner, by simp⟩
    refine suffix_of_suffix_length_le hsuffix (suffix_append _ _) ?_
    have hlength := congrArg length htext
    simp only [length_append] at hlength ⊢
    omega
  obtain ⟨inner', rfl⟩ := htail
  exact ⟨"/**".toList ++ inner' ++ "*/".toList, gap, by simp, ⟨inner', rfl⟩, hblank⟩

/-- A text has a comment, with only white space after it, that begins at the first opening mark. -/
structure FirstDoc (text before doc gap : List Char) : Prop where
  eq_append : text = before ++ doc ++ gap
  isDoc : IsDoc doc
  blank : Blank gap
  first : ∀ x y, text = x ++ "/**".toList ++ y → before.length ≤ x.length

theorem FirstDoc.docToEnd (h : FirstDoc text before doc gap) : DocToEnd (doc ++ gap) :=
  ⟨doc, gap, rfl, h.isDoc, h.blank⟩

/-- `finalDocPattern` finds the comment at the first opening mark. -/
theorem FirstDoc.find? (h : FirstDoc text before doc gap) :
    ∃ m, finalDocPattern.find? text = some m ∧ m.text = doc ++ gap := by
  have htext : text = before ++ (doc ++ gap) := by rw [h.eq_append, append_assoc]
  cases hmatch : matchAt? finalDocPattern text.length false
      ((Cursor.start text).pass before (doc ++ gap)) with
  | none => exact absurd h.docToEnd (matchAt?_finalDoc_eq_none_iff.mp hmatch)
  | some m =>
    refine ⟨m, find?_eq_some_iff.mpr ⟨before, doc ++ gap, htext, hmatch, ?_⟩,
      text_of_matchAt?_finalDoc hmatch⟩
    intro passed d between hbefore
    refine matchAt?_finalDoc_eq_none_iff.mpr ?_
    rintro ⟨doc', gap', hrest, ⟨inner, rfl⟩, -⟩
    -- an opening mark in front of the first one
    have hrest : d :: between ++ (doc ++ gap) = "/**".toList ++ inner ++ "*/".toList ++ gap' := hrest
    have hfirst := h.first passed (inner ++ "*/".toList ++ gap') (by
      rw [htext, hbefore, append_assoc, hrest]
      simp)
    rw [hbefore, length_append, length_cons] at hfirst
    omega

theorem exists_firstDoc (h : finalDocPattern.find? text = some m) :
    ∃ before doc gap, FirstDoc text before doc gap ∧ m.text = doc ++ gap := by
  obtain ⟨before, rest, htext, hhere, hnone⟩ := find?_eq_some_iff.mp h
  have htext : text = before ++ rest := htext
  have hdoc : DocToEnd rest := by
    by_contra hnot
    rw [matchAt?_finalDoc_eq_none_iff.mpr hnot] at hhere
    cases hhere
  have hdoc' := hdoc
  obtain ⟨doc, gap, rfl, hisDoc, hblank⟩ := hdoc'
  refine ⟨before, doc, gap, ⟨by rw [htext, append_assoc], hisDoc, hblank, ?_⟩,
    text_of_matchAt?_finalDoc hhere⟩
  intro x y hxy
  by_contra hlt
  -- an earlier opening mark would have been found
  have hx : x <+: text := ⟨"/**".toList ++ y, by rw [hxy, append_assoc]⟩
  obtain ⟨z, rfl⟩ := prefix_of_prefix_length_le hx ⟨_, htext.symm⟩ (by omega)
  cases z with
  | nil => simp at hlt
  | cons d z =>
    have hopen : "/**".toList ++ y = (d :: z) ++ (doc ++ gap) := by
      rw [htext, append_assoc, append_assoc] at hxy
      exact (append_cancel_left hxy).symm
    have hthere := matchAt?_finalDoc_eq_none_iff.mp (hnone x d z rfl)
    refine hthere ?_
    show DocToEnd (d :: z ++ (doc ++ gap))
    rw [← hopen]
    exact hdoc.of_suffix hopen

/-- **`docBefore?` a position** begins at the first opening mark of the `window`. -/
theorem docBefore?_eq_some_iff {result : String} :
    docBefore? code position = some result ↔
      ∃ before gap, FirstDoc (window code position) before result.toList gap := by
  rw [docBefore?, slice_eq_window, Option.map_eq_some_iff]
  constructor
  · rintro ⟨m, hm, rfl⟩
    obtain ⟨before, doc, gap, hfirst, htext⟩ := exists_firstDoc hm
    refine ⟨before, gap, ?_⟩
    rw [htext, trim_doc_append hfirst.isDoc hfirst.blank, String.toList_ofList]
    exact hfirst
  · rintro ⟨before, gap, hfirst⟩
    obtain ⟨m, hm, htext⟩ := hfirst.find?
    refine ⟨m, hm, ?_⟩
    rw [htext, trim_doc_append hfirst.isDoc hfirst.blank, String.ofList_toList]

theorem docBefore?_eq_none_iff :
    docBefore? code position = none ↔
      ∀ before rest, window code position = before ++ rest → ¬ DocToEnd rest := by
  rw [docBefore?, slice_eq_window, Option.map_eq_none_iff, find?_eq_firstAt?, firstAt?_eq_none_iff]
  simp only [matchAt?_finalDoc_eq_none_iff, Cursor.start, Cursor.pass]

/-- A comment at the first opening mark has one closing mark if all that stand behind that opening
mark have only white space after them. -/
theorem FirstDoc.closedOnce_iff (h : FirstDoc text before doc gap) : ClosedOnce doc ↔
      ∀ x z, text = x ++ "*/".toList ++ z → before.length ≤ x.length → Blank z := by
  have htext : text = before ++ (doc ++ gap) := by rw [h.eq_append, append_assoc]
  constructor
  · intro honce x z hxz hle
    have hx : x <+: text := ⟨"*/".toList ++ z, by rw [hxz, append_assoc]⟩
    obtain ⟨x, rfl⟩ := prefix_of_prefix_length_le ⟨_, htext.symm⟩ hx hle
    have hrest : doc ++ gap = x ++ "*/".toList ++ z := by
      rw [htext, append_assoc, append_assoc] at hxz
      rw [append_cancel_left hxz, append_assoc]
    rcases append_eq_append_iff.mp hrest with ⟨w, hmark, hgap⟩ | ⟨w, hdoc, hz⟩
    · intro c hc
      exact h.blank c (hgap ▸ mem_append_right w hc)
    · rw [hz, honce x w hdoc]
      exact h.blank
  · intro hall x y hxy
    have hblank := hall (before ++ x) (y ++ gap) (by rw [htext, hxy]; simp) (by simp)
    by_contra hne
    -- what follows would end as the comment does, which is not in white space
    obtain ⟨inner, hdoc⟩ := h.isDoc
    have hlast : y.getLast? = some '/' := by
      rw [← getLast?_append_of_ne_nil (x ++ "*/".toList) hne, ← hxy, hdoc,
        getLast?_append_of_ne_nil _ (by decide)]
      rfl
    have hslash := hblank '/' (mem_append_left gap (mem_of_getLast? hlast))
    exact absurd hslash (by decide)

/-- What is reported before a position. It is looked for in the thousand characters before it. There
is none exactly if no comment reaches from there up to the position but for white space. Otherwise
it is what stands from the first opening mark on, and it is one comment exactly if no other closing
mark stands behind that mark. -/
theorem docBefore?_first_opening (code : List Char) (position : Nat) :
    (docBefore? code position = none ↔ ∀ before doc gap,
      window code position = before ++ doc ++ gap → Blank gap → ¬ IsDoc doc) ∧
    (∀ result, docBefore? code position = some result ↔
      ∃ before gap, FirstDoc (window code position) before result.toList gap) ∧
    ∀ before doc gap, FirstDoc (window code position) before doc gap →
      (ClosedOnce doc ↔ ∀ x z, window code position = x ++ "*/".toList ++ z →
        before.length ≤ x.length → Blank z) := by
  refine ⟨?_, fun result => docBefore?_eq_some_iff, fun before doc gap h => h.closedOnce_iff⟩
  rw [docBefore?_eq_none_iff]
  constructor
  · intro h before doc gap htext hblank hdoc
    exact h before (doc ++ gap) (by rw [htext, append_assoc]) ⟨doc, gap, rfl, hdoc, hblank⟩
  · rintro h before rest htext ⟨doc, gap, rfl, hdoc, hblank⟩
    exact h before doc gap (by rw [htext, append_assoc]) hblank hdoc

/-- Two comments with code between them are reported as one. -/
theorem docBefore?_two_comments :
    docBefore? "/** a */ x /** b */ ".toList 20 = some "/** a */ x /** b */" := by
  decide +kernel

end CodeAtlas.JavaScript
