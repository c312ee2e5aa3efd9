import CodeAtlas.Proofs.Margins
import CodeAtlas.Proofs.Signatures

/-!
# Words and pieces

White space divides a text into words. A word character is never white space, so a text made of word
characters is one word, and words with one white space character after each are found again
(`words_append`). A separator divides a text into pieces, and put between the pieces it gives the
text again (`joinWith_splitAt`).
-/

open List

namespace CodeAtlas.Text

variable {accepts : Char → Bool} {text : List Char}
variable {b x y a : List Char}
variable {c separator d : Char}

/-- No word character is white space. -/
theorem isBlank_of_isWord (h : isWord c) : isBlank c = false := by
  have hall : ∀ d ∈ Pattern.blankChars, isWord d = false := by decide +kernel
  rw [Bool.eq_false_iff]
  intro hblank
  rw [hall c (Pattern.mem_blankChars hblank)] at h
  cases h

theorem isWord_of_isAsciiWord (h : isAsciiWord c) : isWord c := by
  have hascii := toNat_of_isAsciiWord h
  rw [isWord, if_pos (by omega)]
  exact h

/-- At least one character of a class. -/
structure Run (accepts : Char → Bool) where
  text : List Char
  ne_nil : text ≠ []
  all : ∀ c ∈ text, accepts c = true

/-- A text with some characters of a class first begins with one of them. -/
theorem Run.of_head? (r : Run accepts) {rest : List Char} (h : (r.text ++ rest).head? = some c) :
    accepts c := by
  obtain ⟨d, more, hmore⟩ := exists_cons_of_ne_nil r.ne_nil
  rw [hmore] at h
  obtain rfl : d = c := Option.some.inj h
  exact r.all d (by simp [hmore])

/-- A text that is one word: not empty and without white space. -/
structure IsOneWord (text : List Char) : Prop where
  ne_nil : text ≠ []
  solid : ∀ c ∈ text, isBlank c = false

theorem IsOneWord.of_isWord (hne : text ≠ []) (h : ∀ c ∈ text, isWord c) : IsOneWord text :=
  ⟨hne, fun c hc => isBlank_of_isWord (h c hc)⟩

theorem IsOneWord.head?_isBlank (h : IsOneWord text) (rest : List Char) :
    (text ++ rest).head?.any isBlank = false := by
  obtain ⟨c, more, rfl⟩ := exists_cons_of_ne_nil h.ne_nil
  exact h.solid c mem_cons_self

/-- `wordsFrom` goes on with the word begun over characters that are not white space. -/
theorem wordsFrom_append (h : ∀ c ∈ text, isBlank c = false) (word rest : List Char) :
    wordsFrom word (text ++ rest) = wordsFrom (text.reverse ++ word) rest := by
  induction text generalizing word with
  | nil => rfl
  | cons c text ih =>
    rw [cons_append, wordsFrom, h c mem_cons_self, reverse_cons, append_assoc, singleton_append]
    exact ih (fun d hd => h d (mem_cons_of_mem _ hd)) _

theorem words_cons_of_isBlank {b : Char} (hb : isBlank b) (rest : List Char) :
    words (b :: rest) = words rest := by
  rw [words, wordsFrom, hb]
  rfl

/-- White space ends a word of `words`. -/
theorem words_append (h : IsOneWord text) {b : Char} (hb : isBlank b) (rest : List Char) :
    words (text ++ b :: rest) = text :: words rest := by
  have hne : text.reverse.isEmpty = false := by simpa using h.ne_nil
  rw [words, wordsFrom_append h.solid, append_nil, wordsFrom, hb, hne]
  simp [words]

theorem words_of_isOneWord (h : IsOneWord text) : words text = [text] := by
  have hne : text.reverse.isEmpty = false := by simpa using h.ne_nil
  have hall := wordsFrom_append h.solid [] []
  rw [append_nil, append_nil] at hall
  rw [words, hall, wordsFrom, hne]
  simp

/-- The `words` of texts without white space that are written with a space between them. -/
theorem words_joinWith {pieces : List (List Char)}
    (h : ∀ piece ∈ pieces, ∀ c ∈ piece, isBlank c = false) :
    words (joinWith [' '] pieces) = pieces.filter (!·.isEmpty) := by
  induction pieces with
  | nil => rfl
  | cons piece pieces ih =>
    have hsolid := h piece mem_cons_self
    have hmore := ih fun q hq => h q (mem_cons_of_mem _ hq)
    by_cases hempty : piece = []
    · subst hempty
      cases pieces with
      | nil => rfl
      | cons piece' pieces =>
        rw [joinWith_cons_cons, nil_append, singleton_append,
          words_cons_of_isBlank (by decide), hmore]
        rfl
    · have hword : IsOneWord piece := ⟨hempty, hsolid⟩
      have hfilter : (piece :: pieces).filter (!·.isEmpty) =
          piece :: pieces.filter (!·.isEmpty) :=
        filter_cons_of_pos (by simpa using hempty)
      rw [hfilter, ← hmore]
      cases pieces with
      | nil => exact words_of_isOneWord hword
      | cons piece' pieces =>
        rw [joinWith_cons_cons, append_assoc, singleton_append, words_append hword (by decide)]

theorem of_mem_wordsFrom {word piece : List Char} (h : piece ∈ wordsFrom word text)
    (hc : c ∈ piece) : c ∈ word ∨ c ∈ text := by
  fun_induction wordsFrom word text <;> grind

theorem mem_of_mem_words {piece : List Char} (h : piece ∈ words text) (hc : c ∈ piece) : c ∈ text :=
  (of_mem_wordsFrom h hc).resolve_left not_mem_nil

theorem mem_joinWith_of_mem {separator piece : List Char} {pieces : List (List Char)}
    (h : piece ∈ pieces) (hc : c ∈ piece) : c ∈ joinWith separator pieces := by
  induction pieces with
  | nil => cases h
  | cons first pieces ih =>
    cases pieces with
    | nil =>
      obtain rfl := mem_singleton.mp h
      exact hc
    | cons second pieces =>
      rw [joinWith_cons_cons]
      rcases mem_cons.mp h with rfl | h
      · exact mem_append_left _ (mem_append_left _ hc)
      · exact mem_append_right _ (ih h)

theorem joinWith_cons_append (separator left piece : List Char) (pieces : List (List Char)) :
    joinWith separator ((left ++ piece) :: pieces) =
      left ++ joinWith separator (piece :: pieces) := by
  cases pieces with
  | nil => rfl
  | cons piece' pieces => simp [joinWith_cons_cons]

theorem joinWith_eq_intercalate (separator : List Char) (pieces : List (List Char)) :
    joinWith separator pieces = separator.intercalate pieces := by
  induction pieces with
  | nil => rfl
  | cons piece pieces ih =>
    cases pieces with
    | nil => simp [joinWith]
    | cons piece' pieces =>
      rw [joinWith_cons_cons, ih, intercalate_cons_cons, append_assoc]

theorem joinWith_splitAt (separator : Char) (text : List Char) :
    joinWith [separator] (splitAt separator text) = text := by
  rw [joinWith_eq_intercalate, intercalate_splitAt]

theorem prefix_of_splitAt {piece : List Char} {pieces : List (List Char)}
    (h : splitAt separator text = piece :: pieces) : piece <+: text := by
  have hjoin := joinWith_splitAt separator text
  rw [h] at hjoin
  cases pieces with
  | nil => exact ⟨[], by rw [append_nil]; exact hjoin⟩
  | cons piece' pieces =>
    rw [joinWith_cons_cons, append_assoc] at hjoin
    exact ⟨_, hjoin⟩

theorem exists_mem_splitAt (h : c ∈ text) (hc : c ≠ separator) :
    ∃ piece ∈ splitAt separator text, c ∈ piece := by
  rw [← joinWith_splitAt separator text] at h
  rcases mem_joinWith h with hsep | hpiece
  · exact absurd (mem_singleton.mp hsep) hc
  · exact hpiece

/-! ## Cutting at a character -/

/-- A text has one cut in front of its first character outside of a class. -/
theorem append_cons_inj (h : x ++ c :: a = y ++ d :: b) (hx : ∀ e ∈ x, accepts e)
    (hy : ∀ e ∈ y, accepts e) (hc : accepts c = false) (hd : accepts d = false) :
    x = y ∧ c = d ∧ a = b := by
  induction x generalizing y with
  | nil =>
    cases y with
    | nil => exact ⟨rfl, cons.inj h⟩
    | cons e y =>
      rw [(cons.inj h).1, hy e mem_cons_self] at hc
      cases hc
  | cons e x ih =>
    cases y with
    | nil =>
      rw [← (cons.inj h).1, hx e mem_cons_self] at hd
      cases hd
    | cons e' y =>
      obtain ⟨rfl, hafter⟩ := cons.inj h
      obtain ⟨rfl, hmore⟩ := ih hafter (fun e he => hx e (mem_cons_of_mem _ he))
        fun e he => hy e (mem_cons_of_mem _ he)
      exact ⟨rfl, hmore⟩

/-- A text has one cut at the first place of a character. -/
theorem append_cons_inj_of_not_mem (h : x ++ d :: a = y ++ d :: b) (hx : d ∉ x) (hy : d ∉ y) :
    x = y ∧ a = b := by
  have hother : ∀ {z : List Char}, d ∉ z → ∀ e ∈ z, (e != d) :=
    fun hz e he => bne_iff_ne.mpr fun heq => hz (heq ▸ he)
  obtain ⟨hxy, -, hab⟩ := append_cons_inj h (hother hx) (hother hy) (by simp) (by simp)
  exact ⟨hxy, hab⟩

/-- A text has one cut behind its last character outside of a class. -/
theorem append_cons_inj_last (h : x ++ c :: a = y ++ d :: b) (ha : ∀ e ∈ a, accepts e)
    (hb : ∀ e ∈ b, accepts e) (hc : accepts c = false) (hd : accepts d = false) :
    x = y ∧ c = d ∧ a = b := by
  have hreverse : a.reverse ++ c :: x.reverse = b.reverse ++ d :: y.reverse := by
    simpa using congrArg reverse h
  obtain ⟨hab, hcd, hxy⟩ := append_cons_inj hreverse (fun e he => ha e (mem_reverse.mp he))
    (fun e he => hb e (mem_reverse.mp he)) hc hd
  exact ⟨reverse_inj.mp hxy, hcd, reverse_inj.mp hab⟩

/-- A stretch of a class at the end of a text begins behind the last character outside of it. -/
theorem append_inj_last {c d : List Char} (h : x ++ c ++ a = y ++ d ++ b) (hc : c ≠ [])
    (hd : d ≠ []) (hc' : ∀ e ∈ c, accepts e = false) (hd' : ∀ e ∈ d, accepts e = false)
    (ha : ∀ e ∈ a, accepts e) (hb : ∀ e ∈ b, accepts e) : x ++ c = y ++ d ∧ a = b := by
  have hnil : ∀ {x c w z : List Char}, c ≠ [] → (∀ e ∈ c, accepts e = false) →
      (∀ e ∈ z, accepts e) → x ++ c = w ++ z → z = [] := by
    intro x c w z hc hc' hz heq
    by_contra hne
    have hlast := congrArg getLast? heq
    rw [getLast?_append_of_ne_nil _ hc, getLast?_append_of_ne_nil _ hne,
      getLast?_eq_some_getLast hne] at hlast
    have haccepts := hz _ (getLast_mem hne)
    rw [hc' _ (mem_of_getLast? hlast)] at haccepts
    cases haccepts
  rcases append_eq_append_iff.mp h with ⟨z, hy, rfl⟩ | ⟨z, hx, rfl⟩
  · obtain rfl := hnil hd hd' (fun e he => ha e (mem_append_left _ he)) hy
    exact ⟨(append_nil _).symm.trans hy.symm, rfl⟩
  · obtain rfl := hnil hc hc' (fun e he => hb e (mem_append_left _ he)) hx
    exact ⟨hx.trans (append_nil _), rfl⟩

/-- A stretch of a class ends no later than in front of a character outside of it. -/
theorem exists_append_of_append_eq (h : x ++ a = y ++ d :: b) (hx : ∀ e ∈ x, accepts e)
    (hd : accepts d = false) : ∃ z, y = x ++ z ∧ a = z ++ d :: b := by
  rcases append_eq_append_iff.mp h with ⟨z, hy, ha⟩ | ⟨z, hx', hd'⟩
  · exact ⟨z, hy, ha⟩
  · cases z with
    | nil =>
      rw [nil_append] at hd'
      exact ⟨[], by simpa using hx'.symm, hd'.symm⟩
    | cons e z =>
      rw [cons_append, cons.injEq] at hd'
      rw [hd'.1, hx e (by simp [hx'])] at hd
      cases hd

end CodeAtlas.Text

theorem CodeAtlas.Outline.Identifier.isWord (i : CodeAtlas.Outline.Identifier) {c : Char}
    (h : c ∈ i.text) : CodeAtlas.Text.isWord c :=
  CodeAtlas.Text.isWord_of_isAsciiWord (i.word c h)
