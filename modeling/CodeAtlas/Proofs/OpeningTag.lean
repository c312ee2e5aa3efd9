import CodeAtlas.Outline.Php
import CodeAtlas.Proofs.AnyCase

/-!
# The opening tag of a PHP text

The tag is removed if it stands at the very start of a text, after white space at most. `body_cases`
says what is removed: white space and the letters of the tag in any case. The tag begins with an
opening angle bracket, which is no other case of another character.
-/

open List

namespace CodeAtlas

open Pattern Text

namespace Php

/-! ## The opening tag -/

/-- An opening tag without the white space before it: `<?php` in any case. -/
def IsTag (tag : List Char) : Prop :=
  tag.map foldCase = "<?php".toList

/-- `openingTag` is found at the start of the text alone. -/
theorem searchFrom_openingTag {bound : Nat} {c : Cursor} (h : c.before ≠ none) :
    openingTag.searchFrom bound c = [] := by
  refine searchFrom_eq_nil fun taken rest _ => matchAt?_eq_none_iff.mpr ?_
  have hbefore : (c.pass taken rest).before ≠ none := by
    rcases eq_nil_or_concat taken with rfl | ⟨front, e, rfl⟩
    · exact h
    · simp [Cursor.pass]
  rw [openingTag, advance_append, advance_append, textStart, advance, if_neg]
  simpa using hbefore

variable {code tag : List Char}

theorem body_eq_self_of_none
    (h : advance code.length openingTag some ⟨Cursor.start code, []⟩ = none) :
    body code = code := by
  have hnone : openingTag.findAll code = [] := by
    rw [findAll_eq_searchFrom]
    cases code with
    | nil => rfl
    | cons c rest =>
      rw [searchFrom_of_none rfl (matchAt?_eq_none_iff.mpr h)]
      exact searchFrom_openingTag (by simp [Cursor.pass])
  rw [body, replaceAll, hnone]
  rfl

/-- A text that does not begin with an opening tag is its own `body`. -/
theorem body_eq_self (h : openingTag.Refuses code.head?) : body code = code :=
  body_eq_self_of_none (Refuses.advance_eq_none h)

/-- `openingTag` begins with white space or with a bracket. -/
theorem refuses_openingTag {c : Char} (hblank : isBlank c = false) (hc : c ≠ '<') :
    openingTag.Refuses (some c) := by
  have hbracket : sameBut '<' c = false := by
    rw [sameBut, beq_eq_false_iff_ne]
    exact fun hfold => hc (eq_of_foldCase (by decide) (by decide) hfold)
  have htag : (litAnyCase "<?php").takes (some c) = (sameBut '<' c || false) := rfl
  refine ⟨?_, rfl⟩
  show (false || true && isBlank c || true && (litAnyCase "<?php").takes (some c)) = false
  rw [htag, hblank, hbracket]
  rfl

/-- **A text has an opening tag or it has none**: after white space a tag, which is removed, or the
text is its own `body`. -/
theorem body_cases (code : List Char) :
    body code = code ∨ ∃ v tag, (∀ c ∈ v, isBlank c) ∧ IsTag tag ∧
      code = v ++ tag ++ body code := by
  have hfound := findAll_eq_searchFrom openingTag code
  cases hstart : advance code.length openingTag some ⟨Cursor.start code, []⟩ with
  | none => exact .inl (body_eq_self_of_none hstart)
  | some t =>
    refine .inr ?_
    have hblanks : advance code.length (blanks ++ litAnyCase "<?php") some
        ⟨Cursor.start code, []⟩ = some t := hstart
    obtain ⟨w, hw, hend⟩ := exists_mem_ways hblanks
    obtain ⟨u, hu, hw⟩ := mem_ways_append.mp hw
    obtain ⟨v, rest, hstretch, rfl⟩ := mem_ways_many.mp hu
    obtain ⟨tag, rest', hrest, htaken, rfl⟩ := mem_ways_litAnyCase.mp hw
    have hrest' : rest = tag ++ rest' := hrest
    have hcode : code = v ++ tag ++ rest' := by
      rw [append_assoc, ← hrest']
      exact hstretch.eq_append
    have hne : v ++ tag ≠ [] := by
      have hlength : (tag.map foldCase).length = 5 := by
        rw [htaken]
        rfl
      intro hempty
      rw [(append_eq_nil_iff.mp hempty).2] at hlength
      cases hlength
    rw [State.pass_pass] at hend
    have hstop : t.cursor.position = (Cursor.start code).position + (v ++ tag).length := by
      rw [← Option.some.inj hend]
      rfl
    have hplain : "<?php".toList.map foldCase = "<?php".toList := by decide +kernel
    refine ⟨v, tag, hstretch.accepted, htaken.trans hplain, ?_⟩
    have hone : openingTag.findAll code =
        [⟨0, t.cursor.position, code, t.captures⟩] := by
      rw [hfound, searchFrom_of_some (m := ⟨0, t.cursor.position, code, t.captures⟩) hcode hne
        (by rw [matchAt?_eq, hstart]; rfl) hstop]
      refine congrArg (_ :: ·) (searchFrom_openingTag ?_)
      obtain ⟨front, e, hlast⟩ := (eq_nil_or_concat _).resolve_left hne
      simp [Cursor.pass, hlast]
    have hbody : body code = rest' := by
      rw [body, replaceAll, hone]
      show code.take 0 ++ [] ++ code.drop (t.cursor.position - 0) = rest'
      have hlength : t.cursor.position - 0 = (v ++ tag).length := by
        rw [hstop]
        exact Nat.zero_add _
      rw [hlength, hcode, drop_left]
      rfl
    rw [hbody]
    exact hcode

/-- No other case of a character in a tag is a line feed or a slash. -/
theorem IsTag.not_mem (h : IsTag tag) {x : Char} (hx : x ∈ ['\n', '/']) : x ∉ tag := by
  have hfold : ∀ x ∈ ['\n', '/'], foldCase x ∉ "<?php".toList := by decide +kernel
  intro hmem
  refine hfold x hx ?_
  rw [← h]
  exact mem_map_of_mem hmem

theorem IsTag.eq_cons (h : IsTag tag) : ∃ more, tag = '<' :: more := by
  cases tag with
  | nil => cases h
  | cons d more =>
    have hd : foldCase d = '<' := (cons.inj h).1
    exact ⟨more, by rw [eq_of_foldCase (by decide) (by decide) hd]⟩

end Php

end CodeAtlas
