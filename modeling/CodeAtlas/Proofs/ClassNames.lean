import CodeAtlas.Outline.JavaEndpoints
import CodeAtlas.Proofs.Words

/-!
# Where classes are named

A class is found where its keyword stands with white space and a name after it, be it the end of a
longer word. A text is `Clear` if this is nowhere the case in it, and if it does not end in a letter
of the keyword either; then clear texts may be put one after another (`Clear.append`), and a search
for classes passes over them (`passes_classTail`).
-/

open List

namespace CodeAtlas

open Pattern Outline Text

namespace Java

variable {bound : Nat} {text gap name rest : List Char}

/-! ## Clear texts -/

/-- Whether a text begins with the keyword and white space after it. -/
def beginsClass (text : List Char) : Bool :=
  "class".toList.isPrefixOf text && (text.drop 5).head?.any isBlank

/-- Whether the keyword with white space after it occurs in a text. -/
def namesClass : List Char → Bool
  | [] => false
  | c :: rest => beginsClass (c :: rest) || namesClass rest

/-- A text that names no class and does not end in a letter of the keyword. -/
structure Clear (text : List Char) : Prop where
  names : namesClass text = false
  last : text.getLast?.any (among "clas") = false

theorem beginsClass_iff : beginsClass text ↔
      ∃ b rest, text = 'c' :: 'l' :: 'a' :: 's' :: 's' :: b :: rest ∧ isBlank b := by
  rw [beginsClass, Bool.and_eq_true, isPrefixOf_iff_prefix]
  constructor
  · rintro ⟨⟨rest, rfl⟩, hblank⟩
    cases rest with
    | nil => cases hblank
    | cons b rest => exact ⟨b, rest, rfl, hblank⟩
  · rintro ⟨b, rest, rfl, hblank⟩
    exact ⟨⟨b :: rest, rfl⟩, hblank⟩

theorem namesClass_eq_false_iff :
    namesClass text = false ↔ ∀ left, left <:+ text → beginsClass left = false := by
  induction text with
  | nil =>
    refine ⟨fun _ left hleft => ?_, fun _ => rfl⟩
    rw [suffix_nil.mp hleft]
    rfl
  | cons c text ih =>
    rw [namesClass, Bool.or_eq_false_iff, ih]
    constructor
    · rintro ⟨hhere, hmore⟩ left hleft
      rcases suffix_cons_iff.mp hleft with rfl | hleft
      · exact hhere
      · exact hmore left hleft
    · intro h
      exact ⟨h _ suffix_rfl, fun left hleft =>
        h left (suffix_cons_iff.mpr (.inr hleft))⟩

/-- The keyword and its white space are not divided after a character that is none of its
letters. -/
theorem beginsClass_append {left : List Char} (hne : left ≠ []) (h : beginsClass left = false)
    (hlast : left.getLast?.any (among "clas") = false) (rest : List Char) :
    beginsClass (left ++ rest) = false := by
  rw [Bool.eq_false_iff]
  intro hbegins
  obtain ⟨b, more, htext, hblank⟩ := beginsClass_iff.mp hbegins
  -- the text ends within the keyword, or the keyword and its white space are all in it
  rcases left with _ | ⟨c₁, _ | ⟨c₂, _ | ⟨c₃, _ | ⟨c₄, _ | ⟨c₅, _ | ⟨c₆, left⟩⟩⟩⟩⟩⟩
  · exact hne rfl
  all_goals simp only [cons_append, nil_append, cons.injEq] at htext
  · rw [htext.1] at hlast
    cases hlast
  · rw [htext.2.1] at hlast
    cases hlast
  · rw [htext.2.2.1] at hlast
    cases hlast
  · rw [htext.2.2.2.1] at hlast
    cases hlast
  · rw [htext.2.2.2.2.1] at hlast
    cases hlast
  · obtain ⟨rfl, rfl, rfl, rfl, rfl, rfl, -⟩ := htext
    have hbegins' := beginsClass_iff.mpr ⟨c₆, left, rfl, hblank⟩
    rw [h] at hbegins'
    cases hbegins'

theorem getLast?_of_suffix {left : List Char} (hleft : left <:+ text) (hne : left ≠ []) :
    left.getLast? = text.getLast? := by
  obtain ⟨front, rfl⟩ := hleft
  rw [getLast?_append_of_ne_nil _ hne]

namespace Clear

theorem nil : Clear [] := ⟨rfl, rfl⟩

theorem append {text' : List Char} (h : Clear text) (h' : Clear text') : Clear (text ++ text') := by
  constructor
  · rw [namesClass_eq_false_iff]
    rintro left ⟨front, hsplit⟩
    rcases append_eq_append_iff.mp hsplit with ⟨begun, rfl, rfl⟩ | ⟨passed, -, rfl⟩
    · by_cases hne : begun = []
      · rw [hne, nil_append]
        exact namesClass_eq_false_iff.mp h'.names text' suffix_rfl
      · have hbegun : begun <:+ front ++ begun := suffix_append _ _
        refine beginsClass_append hne (namesClass_eq_false_iff.mp h.names begun hbegun) ?_ text'
        rw [getLast?_of_suffix hbegun hne]
        exact h.last
    · exact namesClass_eq_false_iff.mp h'.names left (suffix_append _ _)
  · by_cases hne : text' = []
    · rw [hne, append_nil]
      exact h.last
    · rw [getLast?_append_of_ne_nil _ hne]
      exact h'.last

theorem flatMap {α : Type} {f : α → List Char} {l : List α} (h : ∀ a ∈ l, Clear (f a)) :
    Clear (l.flatMap f) := by
  induction l with
  | nil => exact nil
  | cons a l ih =>
    rw [flatMap_cons]
    exact (h a mem_cons_self).append (ih fun b hb => h b (mem_cons_of_mem _ hb))

/-- A text without white space is `Clear` with a character after it that is no letter of the
keyword. -/
theorem of_solid {d : Char} (htext : ∀ c ∈ text, isBlank c = false)
    (hd : isBlank d = false) (hletter : among "clas" d = false) : Clear (text ++ [d]) := by
  constructor
  · refine namesClass_eq_false_iff.mpr fun left hleft => ?_
    rw [Bool.eq_false_iff]
    intro hbegins
    obtain ⟨b, more, rfl, hblank⟩ := beginsClass_iff.mp hbegins
    have hmem : b ∈ text ++ [d] := hleft.subset (by simp)
    rcases mem_append.mp hmem with hb | hb
    · rw [htext b hb] at hblank
      cases hblank
    · rw [mem_singleton.mp hb, hd] at hblank
      cases hblank
  · rw [getLast?_append_of_ne_nil _ (by simp)]
    exact hletter

/-- A word that does not end in the keyword is `Clear` with white space after it. -/
theorem of_word {b : Char} (htext : ∀ c ∈ text, isBlank c = false)
    (hend : ¬ "class".toList <:+ text) (hb : isBlank b) : Clear (text ++ [b]) := by
  constructor
  · refine namesClass_eq_false_iff.mpr fun left hleft => ?_
    rw [Bool.eq_false_iff]
    intro hbegins
    obtain ⟨b', more, rfl, hblank⟩ := beginsClass_iff.mp hbegins
    -- the white space can only be the last character
    obtain ⟨front, hfront⟩ := hleft
    have hsplit : (front ++ "class".toList) ++ b' :: more = text ++ [b] := by
      rw [← hfront]
      simp
    rcases append_eq_append_iff.mp hsplit with
      ⟨between, rfl, hbetween⟩ | ⟨between, hall, hbetween⟩
    · cases between with
      | nil => exact hend ⟨front, by rw [append_nil]⟩
      | cons d between =>
        rw [cons_append, cons.injEq] at hbetween
        have hd := htext d (by simp)
        rw [← hbetween.1, hblank] at hd
        cases hd
    · cases between with
      | nil => exact hend ⟨front, by simpa using hall⟩
      | cons d between =>
        rw [cons_append, cons.injEq] at hbetween
        simp at hbetween
  · rw [getLast?_append_of_ne_nil _ (by simp)]
    show among "clas" b = false
    rw [Bool.eq_false_iff]
    intro hletter
    have hletters : ∀ c ∈ "clas".toList, isBlank c = false := by decide
    rw [hletters b (by simpa [among] using hletter)] at hb
    cases hb

theorem of_blank (htext : ∀ c ∈ text, isBlank c) : Clear text := by
  rw [← flatMap_singleton' text]
  refine Clear.flatMap fun b hb => ?_
  have hword : Clear ([] ++ [b]) := of_word (by simp) (by decide) (htext b hb)
  exact hword

end Clear

/-! ## Searching for classes -/

/-- The keyword and a name, which is the group given. -/
def classTail (index : Nat) : Pattern :=
  lit "class" ++ blanks1 ++ group index (many1 isWord)

theorem failsAt_classTail (h : beginsClass text = false) (index : Nat) :
    (classTail index).FailsAt text := by
  refine .of_ways fun bound s hrest t ht => ?_
  obtain ⟨u, hu, -⟩ := mem_ways_append.mp ht
  obtain ⟨v, hv, hblanks⟩ := mem_ways_append.mp hu
  obtain ⟨more, hclass, rfl⟩ := mem_ways_lit.mp hv
  obtain ⟨taken, rest, hne, ⟨hmore, hblank⟩, -⟩ := mem_ways_many1.mp hblanks
  obtain ⟨b, taken, rfl⟩ := exists_cons_of_ne_nil hne
  have hbegins : beginsClass text := by
    have hmore' : more = b :: taken ++ rest := hmore
    rw [← hrest, hclass, hmore']
    exact beginsClass_iff.mpr ⟨b, taken ++ rest, rfl, hblank b mem_cons_self⟩
  rw [h] at hbegins
  cases hbegins

/-- `classTail` passes over a `Clear` text, whatever follows. -/
theorem Clear.passes_classTail (h : Clear gap) (index : Nat) (rest : List Char) :
    Passes (classTail index) gap rest := by
  intro left hleft hne
  refine failsAt_classTail (beginsClass_append hne ?_ ?_ rest) index
  · exact namesClass_eq_false_iff.mp h.names left hleft
  · rw [getLast?_of_suffix hleft hne]
    exact h.last

/-- `classTail` takes a keyword and a name. -/
theorem leads_classTail (index : Nat) (hne : name ≠ []) (hname : ∀ c ∈ name, isWord c)
    (hend : rest.head?.any isWord = false) :
    (classTail index).Leads bound (spaced "class" ++ name) rest [(index, name)] :=
  (leads_spaced "class" ((IsOneWord.of_isWord hne hname).head?_isBlank rest)).append
    ((Leads.many1 hne hname hend).group index)

/-- **The next class.** After a `Clear` text `classPattern` finds the class that stands there, and
the search goes on after its name. -/
theorem searchFrom_classPattern (bound : Nat) {c : Cursor} (hgap : Clear gap) (hne : name ≠ [])
    (hname : ∀ d ∈ name, isWord d) (hend : rest.head?.any isWord = false)
    (hrest : c.rest = gap ++ (spaced "class" ++ (name ++ rest))) :
    ∃ m : Match, m.group 1 = name ∧ m.start = c.position + gap.length ∧
      searchFrom classPattern bound c = m :: searchFrom classPattern bound
        (c.pass (gap ++ (spaced "class" ++ name)) rest) := by
  rw [← append_assoc (spaced "class")] at hrest
  obtain ⟨m, hstart, -, hgroups, hsearch⟩ := (leads_classTail 1 hne hname hend).searchFrom
    (hgap.passes_classTail 1 _) hrest (by simp [spaced])
  exact ⟨m, congrArg (Option.getD · []) (hgroups 1), hstart, hsearch⟩

end Java

end CodeAtlas
