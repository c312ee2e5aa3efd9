import CodeAtlas.Text.Blank
import CodeAtlas.Text.Lines

/-!
# Lines of a text

Lines are collected character by character. A character either ends the line begun or goes on with
it (`linesFrom_of_endsLine`, `linesFrom_of_inside`), but a carriage return and a line feed end a
line together.
-/

open List

namespace CodeAtlas.Text

variable {c : Char} {text piece : List Char}

theorem isBlank_of_endsLine (h : endsLine c) : isBlank c := by
  simp only [endsLine, isBlank, Bool.or_eq_true, Bool.and_eq_true, decide_eq_true_eq,
    beq_iff_eq] at h ⊢
  omega

/-- `trim` leaves a character that is no white space at the beginning. -/
theorem trim_cons (h : isBlank c = false) (text : List Char) :
    trim (c :: text) = c :: (text.reverse.dropWhile isBlank).reverse := by
  have hlast : (text.reverse ++ [c]).dropWhile isBlank = text.reverse.dropWhile isBlank ++ [c] := by
    rw [dropWhile_append]
    split
    · rename_i hnil
      rw [List.isEmpty_iff.mp hnil, dropWhile_cons, h]
      rfl
    · rfl
  rw [trim, trimBoth, dropWhile_cons, h]
  simp [hlast]

theorem linesFrom_of_inside (hc : endsLine c = false) (line rest : List Char) :
    linesFrom line (c :: rest) = linesFrom (c :: line) rest := by
  rw [linesFrom.eq_def]
  split
  · cases ‹_ :: _ = []›
  · cases ‹_ :: _ = _ :: _ :: _›
    exact absurd hc (by decide)
  · cases ‹_ :: _ = _ :: _›
    rw [hc]
    rfl

/-- A character that ends a line, unless it is the first of the two that end one together. -/
theorem linesFrom_of_endsLine (hc : endsLine c) {rest : List Char}
    (h : ¬ (c = '\r' ∧ rest.head? = some '\n')) (line : List Char) :
    linesFrom line (c :: rest) = line.reverse :: linesFrom [] rest := by
  rw [linesFrom.eq_def]
  split
  · cases ‹_ :: _ = []›
  · cases ‹_ :: _ = _ :: _ :: _›
    exact absurd ⟨rfl, rfl⟩ h
  · cases ‹_ :: _ = _ :: _›
    rw [hc]
    rfl

/-- The line begun takes a character at its front. -/
theorem linesFrom_append (line : List Char) (b : Char) (text : List Char) :
    linesFrom (line ++ [b]) text =
      (b :: (linesFrom line text).headD []) :: (linesFrom line text).tail := by
  fun_induction linesFrom line text with
  | case1 | case2 => simp_all [linesFrom]
  | case3 => simp [linesFrom]
  | case4 | case5 => simp_all [linesFrom]

theorem head?_linesFrom (line text : List Char) (h : line ≠ []) : (linesFrom line text).head? =
      some (line.reverse ++ text.takeWhile fun c => !endsLine c) := by
  fun_induction linesFrom line text with
  | case1 line hempty => simp_all
  | case2 line hempty => simp
  | case3 line rest _ =>
    have hends : endsLine '\r' := by decide
    simp [hends]
  | case4 line c rest _ hends _ => simp [hends]
  | case5 line c rest _ hends ih =>
    rw [ih (by simp)]
    simp [hends]

/-- `linesFrom` goes on with the line begun over characters that end none. -/
theorem linesFrom_append_of_inside (h : ∀ c ∈ text, endsLine c = false) (line rest : List Char) :
    linesFrom line (text ++ rest) = linesFrom (text.reverse ++ line) rest := by
  induction text generalizing line with
  | nil => rfl
  | cons c text ih =>
    rw [cons_append, linesFrom_of_inside (h c mem_cons_self),
      ih fun d hd => h d (mem_cons_of_mem _ hd), reverse_cons, append_assoc]
    rfl

theorem lines_append_feed {line : List Char} (h : ∀ c ∈ line, endsLine c = false)
    (rest : List Char) : lines (line ++ '\n' :: rest) = line :: lines rest := by
  rw [lines, linesFrom_append_of_inside h, linesFrom_of_endsLine (by decide) (by simp), append_nil,
    reverse_reverse]
  rfl

theorem of_mem_linesFrom {line : List Char} (h : piece ∈ linesFrom line text) (hc : c ∈ piece) :
    c ∈ line ∨ c ∈ text := by
  fun_induction linesFrom line text <;> grind

theorem mem_of_mem_lines (h : piece ∈ lines text) (hc : c ∈ piece) : c ∈ text :=
  (of_mem_linesFrom h hc).resolve_left not_mem_nil

end CodeAtlas.Text
