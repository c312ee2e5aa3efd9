import CodeAtlas.Proofs.LineEndings
import CodeAtlas.Proofs.TableBodies

/-!
# Columns of tables

A part of a body that is written in one line is read as a column: a word, a type and what follows
them (`readPart_line`). A type is made of letters, digits and parentheses, so it ends in front of a
comma. Columns are therefore read back with their names, types and constraints exactly if no type
has a scale after its size, and the words `primary key` among the constraints make a column a key
(`isSome_find?_primaryKey`).
-/

open List

namespace CodeAtlas

open Pattern Outline Text

/-! ## Occurrences -/

namespace Text

theorem occursIn_iff {part text : List Char} : occursIn part text ↔ part <:+: text := by
  induction text with
  | nil => simp [occursIn]
  | cons c text ih =>
    rw [occursIn, Bool.or_eq_true, beginsWith, isPrefixOf_iff_prefix, ih, infix_cons_iff]

end Text

namespace Sql

variable {bound : Nat}
variable {c : Char}

/-! ## Primary keys within a column -/

/-- White space is single spaces. -/
structure Spaced (text : List Char) : Prop where
  space : ∀ c ∈ text, isBlank c = true → c = ' '
  single : List.IsChain (fun b c => isBlank b = true → isBlank c = false) text

/-- White space within a `Spaced` text is one space. -/
theorem Spaced.eq_space {text before gap after : List Char} (h : Spaced text)
    (htext : text = before ++ (gap ++ after)) (hne : gap ≠ []) (hgap : ∀ c ∈ gap, isBlank c) :
    gap = [' '] := by
  obtain ⟨b, gap, rfl⟩ := exists_cons_of_ne_nil hne
  have hspace : b = ' ' := h.space b (by rw [htext]; simp) (hgap b mem_cons_self)
  cases gap with
  | nil => rw [hspace]
  | cons b' gap =>
    -- two white space characters side by side
    have hchain := h.single
    rw [htext] at hchain
    have hapart := (isChain_append_cons_cons.mp hchain).2.1 (hgap b mem_cons_self)
    rw [hgap b' (by simp)] at hapart
    cases hapart

theorem map_foldCase_key : "PRIMARY".toList.map foldCase = "primary".toList ∧
    "KEY".toList.map foldCase = "key".toList := by decide

/-- Where the words are found, they stand in some case, with white space between them. -/
theorem exists_of_find?_primaryKey {text : List Char} {m : Match}
    (hm : primaryKeyPattern.find? text = some m) : ∃ passed front gap back rest,
      text = passed ++ front ++ (gap ++ (back ++ rest)) ∧ front.map foldCase = "primary".toList ∧
        gap ≠ [] ∧ (∀ c ∈ gap, isBlank c) ∧ back.map foldCase = "key".toList := by
  obtain ⟨passed, rest, hrest, hhere, -⟩ := find?_eq_some_iff.mp hm
  obtain ⟨t, ht, -⟩ := exists_way_of_matchAt? hhere
  have ht : t ∈ ways _ (litAnyCase "PRIMARY" ++ blanks1 ++ litAnyCase "KEY") _ := ht
  simp only [mem_ways_append, blanks1, mem_ways_litAnyCase, mem_ways_many1, map_foldCase_key] at ht
  obtain ⟨_, ⟨_, ⟨front, rest₁, hrest₁, hfront, rfl⟩, gap, rest₂, hne, ⟨hrest₂, hgap⟩, rfl⟩, back,
    rest', hrest', hback, -⟩ := ht
  refine ⟨passed, front, gap, back, rest', ?_, hfront, hne, hgap, hback⟩
  have hrest : text = passed ++ rest := hrest
  have hrest₁ : rest = front ++ rest₁ := hrest₁
  have hrest₂ : rest₁ = gap ++ rest₂ := hrest₂
  have hrest' : rest₂ = back ++ rest' := hrest'
  rw [hrest, hrest₁, hrest₂, hrest', append_assoc]

/-- **`primaryKeyPattern` finds the words `primary key` in any case.** -/
theorem isSome_find?_primaryKey {text : List Char} (h : Spaced text) :
    (primaryKeyPattern.find? text).isSome = occursIn "primary key".toList (text.map foldCase) := by
  rw [Bool.eq_iff_iff, occursIn_iff]
  constructor
  · intro hsome
    obtain ⟨m, hm⟩ := Option.isSome_iff_exists.mp hsome
    obtain ⟨passed, front, gap, back, rest, htext, hfront, hne, hgap, hback⟩ :=
      exists_of_find?_primaryKey hm
    rw [h.eq_space htext hne hgap] at htext
    refine ⟨passed.map foldCase, rest.map foldCase, ?_⟩
    rw [htext]
    simp only [map_append, hfront, hback, append_assoc]
    rfl
  · rintro ⟨before, after, hinfix⟩
    have hinfix : text.map foldCase =
        before ++ ("primary".toList ++ (' ' :: ("key".toList ++ after))) := by
      rw [← hinfix, append_assoc]
      rfl
    obtain ⟨passed, rest, rfl, -, hrest⟩ := map_eq_append_iff.mp hinfix
    obtain ⟨front, rest', rfl, hfront, hrest'⟩ := map_eq_append_iff.mp hrest
    obtain ⟨b, rest'', rfl, hb, hrest''⟩ := map_eq_cons_iff.mp hrest'
    obtain ⟨back, rest, rfl, hback, -⟩ := map_eq_append_iff.mp hrest''
    obtain rfl : b = ' ' := eq_of_foldCase (by decide) (by decide) hb
    cases hfound : primaryKeyPattern.find? (passed ++ (front ++ ' ' :: (back ++ rest))) with
    | some m => rfl
    | none =>
      rw [find?_eq_firstAt?] at hfound
      have hnone := firstAt?_eq_none_iff.mp hfound passed (front ++ ' ' :: (back ++ rest)) rfl
      have hfits : primaryKeyPattern.Fits (front ++ [' '] ++ back) rest :=
        ((Fits.litAnyCase (hfront.trans map_foldCase_key.1.symm) _).append
          (.many1 (cons_ne_nil _ _) (by decide) _)).append
            (.litAnyCase (hback.trans map_foldCase_key.2.symm) rest)
      obtain ⟨m, -, hmatch⟩ := hfits.matchAt? _
        (c := (Cursor.start _).pass passed (front ++ ' ' :: (back ++ rest))) (by simp [Cursor.pass])
      rw [hmatch] at hnone
      cases hnone

/-! ## Parts in one line -/

theorem isBlank_of_isTypeChar (h : isTypeChar c) : isBlank c = false := by
  have hall : ∀ d ∈ blankChars, isTypeChar d = false := by decide +kernel
  rw [Bool.eq_false_iff]
  intro hblank
  rw [hall c (mem_blankChars hblank)] at h
  cases h

theorem leads_finalPlace : finalPlace.Leads bound [] [] [] := by
  refine .either (.of_pass fun s hrest next r hnext => ?_)
  obtain ⟨⟨before, position, after⟩, captures⟩ := s
  obtain rfl : after = [] := hrest
  exact (advance_edge rfl).trans hnext

/-- A part in one line is a column: a name, a type and what follows them. -/
def linePart (name type rest : List Char) : Part where
  column := some ⟨String.ofList name, String.ofList type, String.ofList (trim rest)⟩
  primaryKeys := if (primaryKeyPattern.find? rest).isSome then [String.ofList name] else []
  foreignKeys := (referencePattern.find? rest).toList.map fun r =>
    ⟨String.ofList name, String.ofList (r.group 1), String.ofList (r.group 2)⟩

/-- **`readPart` takes a part in one line for a column.** -/
theorem readPart_line {name type after : List Char} (hname : name ≠ [])
    (hword : ∀ c ∈ name, isWord c) (htype : type ≠ [])
    (hchars : ∀ c ∈ type, isTypeChar c) (hafter : after.head?.any isTypeChar = false)
    (hline : '\n' ∉ after) : readPart (name ++ ' ' :: (type ++ after)) =
      linePart name type (after.dropWhile isBlank) := by
  obtain ⟨lead, hlead⟩ : ∃ lead, lead = after.takeWhile isBlank := ⟨_, rfl⟩
  obtain ⟨tail, htail⟩ : ∃ tail, tail = after.dropWhile isBlank := ⟨_, rfl⟩
  have hsplit : after = lead ++ tail := by
    rw [hlead, htail, takeWhile_append_dropWhile]
  have hblank : ∀ c ∈ lead, isBlank c := fun c hc =>
    mem_takeWhile_imp (hlead ▸ hc)
  have hinLine : ∀ c ∈ tail, inLine c := by
    intro c hc
    refine bne_iff_ne.mpr ?_
    rintro rfl
    exact hline (by simp [hsplit, hc])
  have htypeHead : ∀ rest, (type ++ rest).head?.any isBlank = false := by
    obtain ⟨c, more, rfl⟩ := exists_cons_of_ne_nil htype
    exact fun _ => isBlank_of_isTypeChar (hchars c mem_cons_self)
  have hleads : columnPattern.Leads (name ++ ' ' :: (type ++ after)).length
      (((((name ++ [' ']) ++ type) ++ lead) ++ tail) ++ []) []
      [(3, tail), (2, type), (1, name)] :=
    (((((leads_ticked hname hword rfl).append (.space (htypeHead _))).append
      ((Leads.many1 htype hchars (by simpa [← hsplit] using hafter)).group 2)).append
        (.many hblank (by simpa [htail] using head?_dropWhile _ _))).append
          ((Leads.many hinLine rfl).group 3)).append leads_finalPlace
  obtain ⟨m, hmatch, -, -, -, hgroups⟩ := hleads.matchAt?
    (c := .start (name ++ ' ' :: (type ++ after))) (by simp [Cursor.start, hsplit])
  have hname : m.group? 1 = some name := hgroups 1
  have htype : m.group? 2 = some type := hgroups 2
  have hrest : m.group? 3 = some tail := hgroups 3
  rw [readPart, matchStart?, hmatch, ← htail]
  simp only [columnPart, linePart, Match.group, hname, htype, hrest, Option.getD_some]
  cases referencePattern.find? tail <;> rfl

/-! ## Columns as written -/

/-- A type: a word, which may have a size or a size and a scale. -/
inductive ColumnType where
  | plain (word : Run isAsciiLetter)
  | sized (word : Run isAsciiLetter) (size : Run isAsciiDigit)
  | scaled (word : Run isAsciiLetter) (size scale : Run isAsciiDigit)

namespace ColumnType

def text : ColumnType → List Char
  | plain word => word.text
  | sized word size => word.text ++ ('(' :: size.text ++ [')'])
  | scaled word size scale => word.text ++ ('(' :: (size.text ++ ',' :: scale.text) ++ [')'])

/-- The part of a type that is read as a type. -/
def shown : ColumnType → List Char
  | plain word => word.text
  | sized word size => word.text ++ ('(' :: size.text ++ [')'])
  | scaled word size _ => word.text ++ ('(' :: size.text)

def cut : ColumnType → List Char
  | plain _ => []
  | sized _ _ => []
  | scaled _ _ scale => ',' :: scale.text ++ [')']

theorem shown_append_cut (k : ColumnType) : k.shown ++ k.cut = k.text := by
  cases k with
  | plain _ | sized _ _ => exact append_nil _
  | scaled word size scale => simp [shown, cut, text]

end ColumnType

theorem isWord_of_isAsciiLetter (h : isAsciiLetter c) : isWord c := by
  refine isWord_of_isAsciiWord ?_
  rw [isAsciiWord, h]
  rfl

theorem isWord_of_isAsciiDigit (h : isAsciiDigit c) : isWord c := by
  refine isWord_of_isAsciiWord ?_
  rw [isAsciiWord, h, Bool.or_true]
  rfl

/-- Letters and digits of ASCII have a lower case of the same kind. -/
theorem isTypeChar_of_isAsciiWord (h : isAsciiWord c) : isTypeChar c := by
  have hall : ∀ n < 128, isAsciiWord (Char.ofNat n) →
      isTypeChar (Char.ofNat n) := by decide +kernel
  have hrange := toNat_of_isAsciiWord h
  have hc := hall c.toNat (by omega)
  rw [Char.ofNat_toNat] at hc
  exact hc h

namespace ColumnType

variable (k : ColumnType)

theorem shown_ne_nil : k.shown ≠ [] := by
  cases k with
  | plain word => exact word.ne_nil
  | sized _ _ | scaled _ _ _ => simp [shown]

theorem isTypeChar_of_mem_shown (hc : c ∈ k.shown) : isTypeChar c := by
  have hletter : ∀ word : Run isAsciiLetter, c ∈ word.text → isTypeChar c := by
    intro word hc
    refine isTypeChar_of_isAsciiWord ?_
    rw [isAsciiWord, word.all c hc]
    rfl
  have hdigit : ∀ size : Run isAsciiDigit, c ∈ size.text → isTypeChar c := by
    intro size hc
    refine isTypeChar_of_isAsciiWord ?_
    rw [isAsciiWord, size.all c hc, Bool.or_true]
    rfl
  cases k with
  | plain word => exact hletter word hc
  | sized word size =>
    simp only [shown, cons_append, mem_append, mem_cons, not_mem_nil, or_false] at hc
    rcases hc with hc | rfl | hc | rfl
    · exact hletter word hc
    · decide
    · exact hdigit size hc
    · decide
  | scaled word size scale =>
    simp only [shown, mem_append, mem_cons] at hc
    rcases hc with hc | rfl | hc
    · exact hletter word hc
    · decide
    · exact hdigit size hc

/-- A comma is left of a type exactly if anything is. -/
theorem comma_mem_text_iff : ',' ∈ k.text ↔ k.cut ≠ [] := by
  have hshown : ',' ∉ k.shown := by
    intro hmem
    have hchar := k.isTypeChar_of_mem_shown hmem
    revert hchar
    decide
  rw [← k.shown_append_cut, mem_append, or_iff_right hshown]
  cases k <;> simp [cut]

/-- Neither white space nor an opening parenthesis is left of a type. -/
theorem of_mem_cut (hc : c ∈ k.cut) : isBlank c = false ∧ c ≠ '(' ∧ c ≠ '\n' := by
  cases k with
  | plain _ | sized _ _ => cases hc
  | scaled word size scale =>
    rw [cut, cons_append, mem_cons, mem_append, mem_singleton] at hc
    rcases hc with rfl | hc | rfl
    · decide
    · have hword := isWord_of_isAsciiDigit (scale.all c hc)
      have hnot : notAmong "(\n" c := notAmong_of_accepts hword (by decide)
      refine ⟨isBlank_of_isWord hword, ?_⟩
      simpa [notAmong] using hnot
    · decide

theorem whole : Whole k.text := by
  have hword : ∀ word : Run isAsciiLetter, Whole word.text := fun word =>
    .of_notAmong fun c hc =>
      notAmong_of_accepts (isWord_of_isAsciiLetter (word.all c hc)) (by decide)
  have hdigits : ∀ size : Run isAsciiDigit, ∀ c ∈ size.text,
      notAmong "();\r" c := fun size c hc =>
    notAmong_of_accepts (isWord_of_isAsciiDigit (size.all c hc)) (by decide)
  cases k with
  | plain word => exact hword word
  | sized word size => exact (hword word).append (.enclosed (hdigits size))
  | scaled word size scale =>
    refine (hword word).append (.enclosed fun c hc => ?_)
    rw [mem_append, mem_cons] at hc
    rcases hc with hc | rfl | hc
    · exact hdigits size c hc
    · decide
    · exact hdigits scale c hc

end ColumnType

/-- A column: name, type and the words of its constraints. -/
structure ColumnText where
  name : Identifier
  type : ColumnType
  words : List (Run isWord)

def spacedWords (words : List (Run isWord)) : List Char :=
  words.flatMap fun w => ' ' :: w.text

namespace ColumnText

def text (c : ColumnText) : List Char :=
  c.name.text ++ ' ' :: (c.type.text ++ spacedWords c.words)

/-- The constraints of a column: its words with a space between them. -/
def constraints (c : ColumnText) : List Char :=
  joinWith [' '] (c.words.map Run.text)

def column (c : ColumnText) : Column :=
  ⟨String.ofList c.name.text, String.ofList c.type.text, String.ofList c.constraints⟩

/-- Whether the constraints make the column a primary key. -/
def isKey (c : ColumnText) : Bool :=
  occursIn "primary key".toList (c.constraints.map foldCase)

def remainder (c : ColumnText) : List Char :=
  (c.type.cut ++ spacedWords c.words).dropWhile isBlank

/-- The part that is read where a column is written. -/
def part (c : ColumnText) : Part where
  column := some
    ⟨String.ofList c.name.text, String.ofList c.type.shown, String.ofList c.remainder⟩
  primaryKeys :=
    if occursIn "primary key".toList (c.remainder.map foldCase) then
      [String.ofList c.name.text]
    else []
  foreignKeys := []

end ColumnText

/-! ## Reading columns -/

theorem whole_identifier (name : Identifier) : Whole name.text :=
  .of_notAmong fun c hc =>
    notAmong_of_accepts (name.isWord hc) (by decide)

theorem mem_spacedWords {words : List (Run isWord)} (h : c ∈ spacedWords words) :
    c = ' ' ∨ isWord c := by
  obtain ⟨w, -, hc⟩ := mem_flatMap.mp h
  rcases mem_cons.mp hc with rfl | hc
  · exact .inl rfl
  · exact .inr (w.all c hc)

/-- Words after a text keep what holds of its end. -/
theorem getLast?_append_spacedWords {bad : Char → Bool}
    (hbad : ∀ c, isWord c → bad c = false) {text : List Char}
    (htext : text.getLast?.any bad = false) (words : List (Run isWord)) :
    (text ++ spacedWords words).getLast?.any bad = false := by
  induction words generalizing text with
  | nil => simpa [spacedWords] using htext
  | cons w words ih =>
    have hw : (text ++ ' ' :: w.text).getLast?.any bad = false := by
      obtain ⟨front, c, hc⟩ := (eq_nil_or_concat w.text).resolve_left w.ne_nil
      have hlast : (text ++ ' ' :: w.text).getLast? = some c := by
        rw [hc, concat_eq_append, ← cons_append, ← append_assoc, getLast?_concat]
      rw [hlast]
      exact hbad c (w.all c (by simp [hc]))
    have hmore := ih hw
    rwa [append_assoc] at hmore

theorem Spaced.of_isBlank {text : List Char} (h : ∀ c ∈ text, isBlank c = false) : Spaced text := by
  refine ⟨fun c hc hblank => ?_, Pairwise.isChain ?_⟩
  · rw [h c hc] at hblank
    cases hblank
  · exact pairwise_of_forall_mem_list fun b _ c hc _ => h c hc

theorem Spaced.append_spacedWords {text : List Char} (h : Spaced text)
    (hlast : text.getLast?.any isBlank = false) (words : List (Run isWord)) :
    Spaced (text ++ spacedWords words) := by
  induction words generalizing text with
  | nil => simpa [spacedWords] using h
  | cons w words ih =>
    have hblank : ∀ c ∈ w.text, isBlank c = false :=
      fun c hc => isBlank_of_isWord (w.all c hc)
    have hword := Spaced.of_isBlank hblank
    have hone : Spaced (text ++ ' ' :: w.text) := by
      refine ⟨fun c hc hb => ?_, ?_⟩
      · rw [mem_append, mem_cons] at hc
        rcases hc with hc | rfl | hc
        · exact h.space c hc hb
        · rfl
        · exact hword.space c hc hb
      · refine h.single.append (hword.single.cons fun c hc _ => ?_) fun b hb c _ hbb => ?_
        · exact hblank c (mem_of_mem_head? hc)
        · -- the text before the space ends in a character that is none
          rw [Option.mem_def.mp hb] at hlast
          have hnot : isBlank b = false := hlast
          rw [hnot] at hbb
          cases hbb
    have hend : (text ++ ' ' :: w.text).getLast?.any isBlank = false := by
      have hwords := getLast?_append_spacedWords (fun _ => isBlank_of_isWord) hlast [w]
      rwa [spacedWords, flatMap_singleton] at hwords
    have hmore := ih hone hend
    rwa [append_assoc] at hmore

namespace ColumnText

variable (c : ColumnText)

/-- What is read after the type is a text without white space, and words after it. -/
theorem exists_remainder : ∃ text words, c.remainder = text ++ spacedWords words ∧
    ∀ e ∈ text, isBlank e = false ∧ e ≠ '(' := by
  unfold remainder
  by_cases hcut : c.type.cut = []
  · rw [hcut, nil_append]
    cases c.words with
    | nil => exact ⟨[], [], rfl, by simp⟩
    | cons w words =>
      refine ⟨w.text, words, ?_, fun e he => ⟨isBlank_of_isWord (w.all e he), ?_⟩⟩
      · exact dropWhile_of_head ((IsOneWord.of_isWord w.ne_nil w.all).head?_isBlank _)
      · rintro rfl
        exact absurd (w.all '(' he) (by decide)
  · have hhead : (c.type.cut ++ spacedWords c.words).head?.any isBlank = false := by
      obtain ⟨e, more, he⟩ := exists_cons_of_ne_nil hcut
      rw [he]
      exact (c.type.of_mem_cut (by rw [he]; exact mem_cons_self)).1
    exact ⟨c.type.cut, c.words, dropWhile_of_head hhead,
      fun e he => ⟨(c.type.of_mem_cut he).1, (c.type.of_mem_cut he).2.1⟩⟩

theorem spaced_remainder : Spaced c.remainder := by
  obtain ⟨text, words, hsplit, htext⟩ := c.exists_remainder
  have hblank : ∀ e ∈ text, isBlank e = false := fun e he => (htext e he).1
  rw [hsplit]
  exact (Spaced.of_isBlank hblank).append_spacedWords (Firm.of_forall hblank).last words

theorem trim_remainder : trim c.remainder = c.remainder := by
  obtain ⟨text, words, hsplit, htext⟩ := c.exists_remainder
  have hlast : c.remainder.getLast?.any isBlank = false := by
    rw [hsplit]
    exact getLast?_append_spacedWords (fun _ => isBlank_of_isWord)
      (Firm.of_forall fun e he => (htext e he).1).last words
  exact Firm.trim ⟨head?_dropWhile _ _, hlast⟩

end ColumnText

/-- `referencePattern` needs a parenthesis. -/
theorem failsAt_reference {text : List Char} (h : '(' ∉ text) : referencePattern.FailsAt text :=
  ((FailsAt.of_not_mem (by decide) h).append _).append _

theorem refuses_referencePattern_none : referencePattern.Refuses none :=
  ⟨by decide +kernel, by decide +kernel⟩

theorem find?_reference_of_not_mem {text : List Char} (h : '(' ∉ text) :
    referencePattern.find? text = none := by
  have hpasses : Passes referencePattern text [] := by
    intro left hleft _
    rw [append_nil]
    exact failsAt_reference fun hmem => h (hleft.subset hmem)
  rw [find?_eq_firstAt?]
  exact hpasses.firstAt?_eq_none refuses_referencePattern_none rfl

namespace ColumnText

variable (c : ColumnText)

theorem readPart_text : readPart c.text = c.part := by
  have hafter : (c.type.cut ++ spacedWords c.words).head?.any isTypeChar = false := by
    have hcomma : isTypeChar ',' = false := by decide
    have hwords : (spacedWords c.words).head?.any isTypeChar = false := by
      cases c.words with
      | nil => rfl
      | cons w words => exact (by decide : isTypeChar ' ' = false)
    cases c.type with
    | plain _ | sized _ _ => exact hwords
    | scaled word size scale => exact hcomma
  have hline : '\n' ∉ c.type.cut ++ spacedWords c.words := by
    intro hmem
    rcases mem_append.mp hmem with hmem | hmem
    · exact (c.type.of_mem_cut hmem).2.2 rfl
    · rcases mem_spacedWords hmem with h | h
      · cases h
      · exact absurd h (by decide)
  have hopen : '(' ∉ c.remainder := by
    obtain ⟨text, words, hsplit, htext⟩ := c.exists_remainder
    rw [hsplit]
    intro hmem
    rcases mem_append.mp hmem with hmem | hmem
    · exact (htext '(' hmem).2 rfl
    · rcases mem_spacedWords hmem with h | h
      · cases h
      · exact absurd h (by decide)
  have hread := readPart_line c.name.ne_nil
    (fun e => c.name.isWord) c.type.shown_ne_nil
    (fun e => c.type.isTypeChar_of_mem_shown) hafter hline
  rw [← append_assoc, c.type.shown_append_cut] at hread
  refine hread.trans ?_
  show linePart c.name.text c.type.shown c.remainder = c.part
  rw [linePart, c.trim_remainder, isSome_find?_primaryKey c.spaced_remainder,
    find?_reference_of_not_mem hopen]
  rfl

theorem whole : Whole c.text := by
  have hspace : Whole [' '] := .of_notAmong (by decide)
  have hwords : Whole (spacedWords c.words) := .of_notAmong fun e he => by
    rcases mem_spacedWords he with rfl | he
    · decide
    · exact notAmong_of_accepts he (by decide)
  exact (whole_identifier c.name).append (hspace.append (c.type.whole.append hwords))

theorem firm : Firm (fun e => isBlank e || e == ',') c.text := by
  have hword : ∀ e, isWord e → (isBlank e || e == ',') = false := by
    intro e he
    have hcomma : notAmong "," e := notAmong_of_accepts he (by decide)
    rw [isBlank_of_isWord he]
    simpa [notAmong] using hcomma
  constructor
  · rw [text, head?_append_of_ne_nil _ c.name.ne_nil]
    exact (Firm.of_forall fun e he =>
      hword e (c.name.isWord he)).head
  · have hsplit : c.text = (c.name.text ++ ' ' :: c.type.text) ++ spacedWords c.words := by
      simp [text]
    rw [hsplit]
    refine getLast?_append_spacedWords hword ?_ c.words
    have hclose : ∀ front : List Char,
        ((front ++ [')']).getLast?.any fun e => isBlank e || e == ',') = false := by
      intro front
      rw [getLast?_concat]
      decide
    cases c.type with
    | plain word =>
      rw [ColumnType.text, ← singleton_append, ← append_assoc,
        getLast?_append_of_ne_nil _ word.ne_nil]
      exact (Firm.of_forall fun e he =>
        hword e (isWord_of_isAsciiLetter (word.all e he))).last
    | sized word size =>
      have hend := hclose (c.name.text ++ ' ' :: (word.text ++ '(' :: size.text))
      simpa only [ColumnType.text, append_assoc, cons_append] using hend
    | scaled word size scale =>
      have hend := hclose
        (c.name.text ++ ' ' :: (word.text ++ '(' :: (size.text ++ ',' :: scale.text)))
      simpa only [ColumnType.text, append_assoc, cons_append] using hend

def entry : Entry where
  text := c.text
  part := c.part
  ne_nil := by simp [text]
  firm := c.firm
  whole := c.whole
  reads := c.readPart_text

end ColumnText

/-! ## Tables of columns -/

namespace ColumnText

variable {c : ColumnText}

theorem joinWith_space (w : Run isWord) (words : List (Run isWord)) :
    joinWith [' '] ((w :: words).map Run.text) = w.text ++ spacedWords words := by
  induction words generalizing w with
  | nil => simp [joinWith, spacedWords]
  | cons w' words ih =>
    rw [map_cons, map_cons, joinWith_cons_cons, ← map_cons, ih, append_assoc]
    rfl

/-- Where nothing is left of the type, the constraints are read as they are. -/
theorem remainder_eq_constraints (h : c.type.cut = []) : c.remainder = c.constraints := by
  rw [remainder, h, nil_append, constraints]
  cases c.words with
  | nil => rfl
  | cons w words =>
    rw [joinWith_space]
    exact dropWhile_of_head ((IsOneWord.of_isWord w.ne_nil w.all).head?_isBlank _)

theorem part_of_cut_eq_nil (h : c.type.cut = []) :
    c.part = ⟨some c.column, if c.isKey then [String.ofList c.name.text] else [], []⟩ := by
  have hshown : c.type.shown = c.type.text := by
    rw [← c.type.shown_append_cut, h, append_nil]
  rw [part, remainder_eq_constraints h, hshown]
  rfl

end ColumnText

theorem flatMap_ite {α β : Type} (holds : α → Bool) (f : α → β) (l : List α) :
    (l.flatMap fun a => if holds a then [f a] else []) = (l.filter holds).map f := by
  induction l with
  | nil => rfl
  | cons a l ih =>
    rw [flatMap_cons, ih, filter_cons]
    cases holds a <;> rfl

structure ColumnTable where
  name : Identifier
  layout : Layout
  first : ColumnText
  more : List ColumnText

namespace ColumnTable

variable (d : ColumnTable)

def columns : List ColumnText :=
  d.first :: d.more

/-- A table as written: its columns in parentheses, with a comma and white space between them. -/
def text : List Char :=
  "CREATE TABLE ".toList ++ d.name.text ++ " (".toList ++
    (d.layout.lead ++ (joinWith (',' :: d.layout.gap) (d.columns.map ColumnText.text) ++
      d.layout.trail)) ++ ");".toList

/-- The table that is written: its keys are the columns whose constraints make them keys, without
repetition. -/
def table : Table where
  schema := none
  name := String.ofList d.name.text
  columns := d.columns.map ColumnText.column
  primaryKeys :=
    ((d.columns.filter ColumnText.isKey).map fun c => String.ofList c.name.text).eraseDups
  foreignKeys := []

def declaration : Declaration :=
  ⟨d.name, d.layout, d.first.entry, d.more.map ColumnText.entry⟩

theorem declaration_text : d.declaration.text = d.text := by
  have hentries : d.declaration.entries.map Entry.text = d.columns.map ColumnText.text := by
    simp only [Declaration.entries, declaration, columns, map_cons, map_map]
    rfl
  unfold Declaration.text Declaration.body entriesText
  rw [hentries]
  rfl

theorem declaration_entries : d.declaration.entries = d.columns.map ColumnText.entry := rfl

/-- A table of columns is read back exactly if no type has a comma. -/
theorem declaration_table_eq_iff :
    d.declaration.table = d.table ↔ ∀ c ∈ d.columns, ',' ∉ c.type.text := by
  have hcut : ∀ c : ColumnText, ',' ∉ c.type.text ↔ c.type.cut = [] := by
    intro c
    rw [c.type.comma_mem_text_iff, not_not]
  simp only [hcut]
  constructor
  · intro h c hc
    have hcolumns : d.columns.map (fun c => (⟨String.ofList c.name.text,
        String.ofList c.type.shown, String.ofList c.remainder⟩ : Column)) =
          d.columns.map ColumnText.column := by
      refine Eq.trans ?_ (congrArg Table.columns h)
      simp only [Declaration.table, declaration_entries, filterMap_map]
      exact (congrFun filterMap_eq_map' d.columns).symm
    have htype := congrArg Column.type (map_inj_left.mp hcolumns c hc)
    have hshown : c.type.shown = c.type.text := String.ofList_inj.mp htype
    rw [← c.type.shown_append_cut] at hshown
    exact append_right_eq_self.mp hshown.symm
  · intro h
    have hparts : ∀ c ∈ d.columns, c.entry.part =
        ⟨some c.column, if c.isKey then [String.ofList c.name.text] else [], []⟩ :=
      fun c hc => ColumnText.part_of_cut_eq_nil (h c hc)
    have hcolumns : d.declaration.table.columns = d.table.columns := by
      simp only [Declaration.table, declaration_entries, filterMap_map]
      refine (filterMap_congr fun c hc => ?_).trans
        (congrFun filterMap_eq_map' d.columns)
      exact congrArg Part.column (hparts c hc)
    have hkeys : d.declaration.table.primaryKeys = d.table.primaryKeys := by
      simp only [Declaration.table, table, declaration_entries, flatMap_map]
      rw [← flatMap_ite]
      refine congrArg eraseDups (flatMap_congr fun c hc => ?_)
      exact congrArg Part.primaryKeys (hparts c hc)
    have hforeign : d.declaration.table.foreignKeys = d.table.foreignKeys := by
      simp only [Declaration.table, table, declaration_entries, flatMap_map]
      exact flatMap_eq_nil_iff.mpr fun c hc => congrArg Part.foreignKeys (hparts c hc)
    exact Table.mk.injEq .. ▸ ⟨rfl, rfl, hcolumns, hkeys, hforeign⟩

end ColumnTable

end Sql

/-! ## Files -/

namespace Survey

open Sql

/-- **Columns are read back exactly if no type has a comma.** A script that declares tables of
columns, each in lines of its own, is reported with these tables in their order: with the names,
types and constraints of their columns, with the columns that are called a primary key, and without
foreign keys. -/
theorem columns_read_back (w : Workspace) (path : String) (single block : List Json)
    (ds : List ColumnTable) (ended : Bool)
    (hread : w.readFile path =
      .ok ((linesText (ds.map ColumnTable.text) ended).flatMap String.utf8EncodeChar)) :
    ∃ o : Sql.Outline,
      sqlWith w path single block = .ok ⟨path, some Language.sql.name, .sql o single block⟩ ∧
        (o.tables = ds.map ColumnTable.table ↔
          ∀ d ∈ ds, ∀ c ∈ d.columns, ',' ∉ c.type.text) := by
  have htexts : ds.map ColumnTable.text =
      (ds.map ColumnTable.declaration).map Declaration.text := by
    rw [map_map]
    exact map_congr_left fun d _ => d.declaration_text.symm
  rw [htexts] at hread
  refine ⟨_, plain_of_encode .sql _ hread (return_not_mem_declarations _ ended), ?_⟩
  have htables : (outline (linesText ((ds.map ColumnTable.declaration).map Declaration.text)
      ended)).tables = (ds.map ColumnTable.declaration).map Declaration.table :=
    tables_declarations _ ended
  rw [htables, map_map, map_inj_left]
  exact forall₂_congr fun d _ => d.declaration_table_eq_iff

def integer : ColumnType :=
  .plain ⟨['i', 'n', 't'], cons_ne_nil _ _, by decide⟩

def keyedColumns : ColumnTable :=
  ⟨.f, .oneLine,
    ⟨.f, integer,
      [⟨"Primary".toList, by decide, by decide⟩, ⟨"KEY".toList, by decide, by decide⟩]⟩,
    [⟨⟨['n'], by decide, by decide⟩, .sized ⟨['v'], cons_ne_nil _ _, by decide⟩
      ⟨['9'], cons_ne_nil _ _, by decide⟩, []⟩]⟩

/-- A table of two columns, declared twice. -/
theorem columns_read_back_twice :
    ∃ o : Sql.Outline,
      sqlWith (oneFile ((linesText (replicate 2
        "CREATE TABLE f (f int Primary KEY, n v(9));".toList) false).flatMap
          String.utf8EncodeChar)) "a.rb" [] [] = .ok ⟨"a.rb", some "sql", .sql o [] []⟩ ∧
      o.tables = replicate 2
        ⟨none, "f", [⟨"f", "int", "Primary KEY"⟩, ⟨"n", "v(9)", ""⟩], ["f"], []⟩ := by
  obtain ⟨o, hreport, hiff⟩ := columns_read_back (oneFile ((linesText
    ([keyedColumns, keyedColumns].map ColumnTable.text) false).flatMap String.utf8EncodeChar))
    "a.rb" [] [] [keyedColumns, keyedColumns] false (readFile_oneFile _)
  have hcomma : ∀ d ∈ [keyedColumns, keyedColumns], ∀ c ∈ d.columns, ',' ∉ c.type.text := by
    decide
  refine ⟨o, hreport, (hiff.mpr hcomma).trans ?_⟩
  decide

end Survey

end CodeAtlas
