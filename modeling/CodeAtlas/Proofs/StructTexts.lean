import CodeAtlas.Outline.Go
import CodeAtlas.Proofs.Lines
import CodeAtlas.Proofs.Words

/-!
# Structures read back

A structure is written as a line with its name, a line for each field and a closing brace. Its body
is read up to the first closing brace, whatever that stands in, and then line by line and word by
word. White space at the ends of a body makes no difference to the words of its lines
(`wordsOfLines_trim`), so a body without a brace gives back its fields (`fields_body`). A body
with one is cut short, and a field that holds the brace is never read back. So structures are read
back exactly if no field holds a closing brace (`structs_text_iff`).
-/

open List

namespace CodeAtlas.Text

/-! ## Words of lines -/

variable {b : Char} {pieces : List (List Char)} {text piece : List Char}

theorem wordsFrom_append_blank (hb : isBlank b) (word text : List Char) :
    wordsFrom word (text ++ [b]) = wordsFrom word text := by
  induction text generalizing word with
  | nil => cases word <;> simp [wordsFrom, hb]
  | cons c text ih => simp only [cons_append, wordsFrom, ih]

def wordsOfLines (lines : List (List Char)) : List (List (List Char)) :=
  (lines.map words).filter (!·.isEmpty)

theorem wordsOfLines_cons (line : List Char) (lines : List (List Char)) :
    wordsOfLines (line :: lines) = wordsOfLines [line] ++ wordsOfLines lines := by
  simp [wordsOfLines, filter_cons]
  split <;> rfl

/-- `wordsOfLines` is the same with white space before a text. -/
theorem wordsOfLines_cons_blank (hb : isBlank b) (text : List Char) :
    wordsOfLines (lines (b :: text)) = wordsOfLines (lines text) := by
  have hnil : ∀ lines, wordsOfLines ([] :: lines) = wordsOfLines lines :=
    fun lines => wordsOfLines_cons [] lines
  have hwords : ∀ line, words (b :: line) = words line := words_cons_of_isBlank hb
  unfold lines
  cases hends : endsLine b with
  | true =>
    by_cases hpair : b = '\r' ∧ text.head? = some '\n'
    · obtain ⟨rfl, hhead⟩ := hpair
      obtain ⟨rest, rfl⟩ := head?_eq_some_iff.mp hhead
      rfl
    · rw [linesFrom_of_endsLine hends hpair]
      exact hnil _
  | false =>
    rw [linesFrom_of_inside hends, ← nil_append [b], linesFrom_append]
    cases linesFrom [] text with
    | nil =>
      show wordsOfLines [[b]] = []
      rw [wordsOfLines, map_singleton, hwords]
      rfl
    | cons first others => simp [wordsOfLines, hwords]

/-- `wordsOfLines` is the same with white space after a text. -/
theorem wordsOfLines_append_blank (hb : isBlank b) (line text : List Char) :
    wordsOfLines (linesFrom line (text ++ [b])) = wordsOfLines (linesFrom line text) := by
  have hwords : ∀ line, words (line ++ [b]) = words line := wordsFrom_append_blank hb []
  -- the white space at the very end of a text
  have hlast : ∀ line, wordsOfLines (linesFrom line [b]) = wordsOfLines [line.reverse] := by
    intro line
    cases hends : endsLine b with
    | true => rw [linesFrom_of_endsLine hends (by simp)]; rfl
    | false =>
      rw [linesFrom_of_inside hends]
      simp [linesFrom, wordsOfLines, hwords]
  fun_induction linesFrom line text with
  | case1 line hempty =>
    rw [List.isEmpty_iff] at hempty
    rw [nil_append, hlast, hempty]
    rfl
  | case2 line hempty => rw [nil_append, hlast]
  | case3 line rest ih =>
    show wordsOfLines (line.reverse :: linesFrom [] (rest ++ [b])) = _
    rw [wordsOfLines_cons, ih, ← wordsOfLines_cons]
  | case4 line c rest hpair hends ih =>
    by_cases hjoin : c = '\r' ∧ (rest ++ [b]).head? = some '\n'
    · -- the text ends in a carriage return, which the new character completes
      obtain ⟨rfl, hhead⟩ := hjoin
      cases rest with
      | nil =>
        obtain rfl : b = '\n' := Option.some.inj hhead
        rfl
      | cons d rest => exact (hpair rest rfl (by rw [Option.some.inj hhead])).elim
    · rw [cons_append, linesFrom_of_endsLine hends hjoin, wordsOfLines_cons, ih,
        ← wordsOfLines_cons]
  | case5 line c rest hpair hends ih =>
    rw [cons_append, linesFrom_of_inside (Bool.eq_false_iff.mpr hends), ih]

/-- `trim` takes white space away from the ends. -/
theorem exists_trim (text : List Char) : ∃ left right, text = left ++ trim text ++ right ∧
    (∀ c ∈ left, isBlank c) ∧ ∀ c ∈ right, isBlank c := by
  let inner := text.dropWhile isBlank
  refine ⟨text.takeWhile isBlank, (inner.reverse.takeWhile isBlank).reverse, ?_, ?_, ?_⟩
  · have hback : trim text ++ (inner.reverse.takeWhile isBlank).reverse = inner := by
      rw [trim, trimBoth, ← reverse_append, takeWhile_append_dropWhile, reverse_reverse]
    rw [append_assoc, hback, takeWhile_append_dropWhile]
  · exact all_eq_true.mp all_takeWhile
  · intro c hc
    exact all_eq_true.mp all_takeWhile c (mem_reverse.mp hc)

/-- `wordsOfLines` is the same with white space at the ends of a text. -/
theorem wordsOfLines_trim (text : List Char) :
    wordsOfLines (lines (trim text)) = wordsOfLines (lines text) := by
  obtain ⟨left, right, htext, hleft, hright⟩ := exists_trim text
  generalize trim text = inner at htext
  subst htext
  have hback : ∀ text, wordsOfLines (lines (text ++ right)) = wordsOfLines (lines text) := by
    intro text
    induction right generalizing text with
    | nil => rw [append_nil]
    | cons b right ih =>
      rw [append_cons, ih (fun c hc => hright c (mem_cons_of_mem _ hc))]
      exact wordsOfLines_append_blank (hright b mem_cons_self) [] text
  rw [hback]
  induction left with
  | nil => rfl
  | cons b left ih =>
    rw [cons_append, wordsOfLines_cons_blank (hleft b mem_cons_self)]
    exact ih fun c hc => hleft c (mem_cons_of_mem _ hc)

theorem filterMap_words {β : Type} {read : List (List Char) → Option β} (hread : read [] = none)
    (lines : List (List Char)) :
    lines.filterMap (fun line => read (words line)) = (wordsOfLines lines).filterMap read := by
  induction lines with
  | nil => rfl
  | cons line lines ih =>
    rw [wordsOfLines_cons, filterMap_append, filterMap_cons, ih]
    cases hwords : words line with
    | nil => simp [wordsOfLines, hwords, hread]
    | cons word others => cases hout : read (word :: others) <;> simp [wordsOfLines, hwords, hout]

theorem mem_of_mem_trim {c : Char} (h : c ∈ trim text) : c ∈ text := by
  obtain ⟨left, right, htext, -, -⟩ := exists_trim text
  rw [htext]
  exact mem_append_left _ (mem_append_right _ h)

end CodeAtlas.Text

namespace CodeAtlas.Go

open Pattern Text

def fieldOf? (words : List (List Char)) : Option Field :=
  words.head?.bind fun name => words.tail.head?.map fun type =>
    ⟨String.ofList name, String.ofList type,
      if words.tail.tail.isEmpty then none
      else some (String.ofList (joinWith [' '] words.tail.tail))⟩

theorem field?_eq (line : List Char) : field? line = fieldOf? (words line) := by
  unfold field?
  rcases words line with _ | ⟨name, _ | ⟨type, tag⟩⟩ <;> rfl

/-! ## Structures as written -/

/-- A field: a name, a type and perhaps a tag of several texts, none with white space. -/
structure FieldText where
  name : List Char
  type : List Char
  tag : List (List Char)
  name_word : IsOneWord name
  type_word : IsOneWord type
  tag_solid : ∀ w ∈ tag, ∀ c ∈ w, isBlank c = false

/-- A structure: a name of word characters and some fields. -/
structure StructText where
  name : Run isWord
  fields : List FieldText

namespace FieldText

variable (f : FieldText)

def line : List Char :=
  joinWith [' '] (f.name :: f.type :: f.tag)

/-- The words of the tag; an empty text is none. -/
def tagWords : List (List Char) :=
  f.tag.filter (!·.isEmpty)

def declares : Field :=
  ⟨String.ofList f.name, String.ofList f.type,
    if f.tagWords = [] then none else some (String.ofList (joinWith [' '] f.tagWords))⟩

/-- A character stands in the name, the type or the tag. -/
def Holds (c : Char) : Prop :=
  c ∈ f.name ∨ c ∈ f.type ∨ ∃ w ∈ f.tag, c ∈ w

theorem solid : ∀ piece ∈ f.name :: f.type :: f.tag, ∀ c ∈ piece, isBlank c = false := by
  intro piece hpiece
  simp only [mem_cons] at hpiece
  rcases hpiece with rfl | rfl | hpiece
  · exact f.name_word.solid
  · exact f.type_word.solid
  · exact f.tag_solid piece hpiece

theorem words_line : words f.line = f.name :: f.type :: f.tagWords := by
  rw [line, words_joinWith f.solid]
  simp [tagWords, f.name_word.ne_nil, f.type_word.ne_nil]

theorem field?_line : field? f.line = some f.declares := by
  rw [field?, words_line, declares]
  simp

/-- The characters of a line are those of the field and the spaces. -/
theorem mem_line_iff {c : Char} (hc : c ≠ ' ') : c ∈ f.line ↔ f.Holds c := by
  have hpieces : f.Holds c ↔ ∃ piece ∈ f.name :: f.type :: f.tag, c ∈ piece := by
    simp [Holds]
  rw [hpieces]
  constructor
  · intro h
    exact (mem_joinWith h).resolve_left fun hspace => hc (mem_singleton.mp hspace)
  · rintro ⟨piece, hpiece, hmem⟩
    exact mem_joinWith_of_mem hpiece hmem

theorem mem_of_field? {line : List Char} (h : field? line = some f.declares) {c : Char}
    (hc : c ≠ ' ') (hf : f.Holds c) : c ∈ line := by
  rw [field?] at h
  split at h
  · rename_i name type tag hwords
    rw [Option.some.injEq, declares, Field.mk.injEq, String.ofList_inj, String.ofList_inj] at h
    obtain ⟨rfl, rfl, htag⟩ := h
    -- a piece in which the character stands is a word of the line
    have hpiece : ∀ piece ∈ f.name :: f.type :: tag, c ∈ piece → c ∈ line := by
      intro piece hpiece hmem
      exact mem_of_mem_words (hwords ▸ hpiece) hmem
    rcases hf with hname | htype | ⟨w, hw, hmem⟩
    · exact hpiece _ (by simp) hname
    · exact hpiece _ (by simp) htype
    · have hword : w ∈ f.tagWords := by
        rw [tagWords, mem_filter]
        exact ⟨hw, by simpa using ne_nil_of_mem hmem⟩
      rw [if_neg (ne_nil_of_mem hword)] at htag
      split at htag
      · cases htag
      · rw [Option.some.injEq, String.ofList_inj] at htag
        have hjoined : c ∈ joinWith [' '] tag := htag ▸ mem_joinWith_of_mem hword hmem
        rcases mem_joinWith hjoined with hspace | ⟨piece, htagged, hmem⟩
        · exact absurd (mem_singleton.mp hspace) hc
        · exact hpiece piece (by simp [htagged]) hmem
  · cases h

theorem endsLine_line {c : Char} (h : c ∈ f.line) : endsLine c = false := by
  rcases mem_joinWith h with hspace | ⟨piece, hpiece, hc⟩
  · rw [mem_singleton.mp hspace]
    decide
  · rw [Bool.eq_false_iff]
    intro hends
    exact Bool.false_ne_true ((f.solid piece hpiece c hc).symm.trans (isBlank_of_endsLine hends))

end FieldText

namespace StructText

variable (s : StructText)

/-- What stands between the braces: every field in a line of its own. -/
def body : List Char :=
  '\n' :: s.fields.flatMap fun f => f.line ++ ['\n']

def opening (name : List Char) : List Char :=
  "type".toList ++ [' '] ++ name ++ [' '] ++ "struct".toList ++ [' '] ++ "\x7b".toList

/-- A structure as written, with a line feed at its end. -/
def text : List Char :=
  opening s.name.text ++ s.body ++ "\x7d\n".toList

def declares : Struct :=
  ⟨String.ofList s.name.text, s.fields.map FieldText.declares⟩

theorem mem_body_iff {c : Char} (hspace : c ≠ ' ') (hfeed : c ≠ '\n') :
    c ∈ s.body ↔ ∃ f ∈ s.fields, f.Holds c := by
  simp [body, hfeed, FieldText.mem_line_iff _ hspace]

theorem lines_body : lines s.body = [] :: s.fields.map FieldText.line := by
  have hfields : ∀ fields : List FieldText,
      lines (fields.flatMap fun f => f.line ++ ['\n']) = fields.map FieldText.line := by
    intro fields
    induction fields with
    | nil => rfl
    | cons f fields ih =>
      rw [flatMap_cons, append_assoc, singleton_append,
        lines_append_feed fun c hc => f.endsLine_line hc, ih, map_cons]
  rw [← hfields]
  exact @lines_append_feed [] (by simp) _

theorem fields_body : (lines (trim s.body)).filterMap field? = s.fields.map FieldText.declares := by
  simp only [field?_eq]
  rw [filterMap_words rfl, wordsOfLines_trim, ← filterMap_words rfl, lines_body,
    filterMap_cons_none rfl, filterMap_map]
  simp only [← field?_eq]
  exact filterMap_eq_map_iff_forall_eq_some.mpr fun f _ => f.field?_line

/-- `bodyPattern` takes a structure up to the first closing brace. -/
theorem leads (bound : Nat) (name : Run isWord) {body : List Char} (hbody : '\x7d' ∉ body)
    (rest : List Char) : (bodyPattern "struct").Leads bound
      (opening name.text ++ (body ++ "\x7d".toList)) rest [(2, body), (1, name.text)] := by
  have hname : IsOneWord name.text := .of_isWord name.ne_nil name.all
  exact (((((((Leads.lit "type" _).append (.space (hname.head?_isBlank _))).append
    ((Leads.many1 name.ne_nil name.all rfl).group 1)).append (.space rfl)).append
    (.lit "struct" _)).append (.many (by decide) rfl)).append (.lit "\x7b" _)).append
    (.group_fewest (.lit rfl hbody) (.lit "\x7d" rest))

end StructText

def readStruct (m : Match) : Struct :=
  ⟨String.ofList (m.group 1), (lines (trim (m.group 2))).filterMap field?⟩

variable {c : Cursor} {bound : Nat} {s : StructText} {rest : List Char}

/-- `readStruct` reads a body without a closing brace back. -/
theorem reads_struct (h : '\x7d' ∉ s.body) (rest : List Char) :
    Reads (bodyPattern "struct") readStruct s.text [s.declares] rest := by
  have htext : s.text = StructText.opening s.name.text ++ (s.body ++ "\x7d".toList) ++ ['\n'] := by
    simp [StructText.text]
  rw [htext]
  refine (Reads.of_leads (by simp) (StructText.leads · s.name h _) fun m hgroup => ?_).append_passes
    (.of_refuses fun d hd => ?_)
  · simp only [readStruct, Match.group, hgroup]
    exact congrArg _ s.fields_body
  · rw [mem_singleton.mp hd]
    exact ⟨rfl, rfl⟩

/-- `readStruct` does not read a body with a closing brace back. -/
theorem readStruct_ne_of_mem (h : '\x7d' ∈ s.body) (hrest : c.rest = s.text ++ rest) :
    ∃ found others, (searchFrom (bodyPattern "struct") bound c).map readStruct = found :: others ∧
      found ≠ s.declares := by
  obtain ⟨front, back, hbody, hfront⟩ := eq_append_cons_of_mem h
  have htext : s.text ++ rest = StructText.opening s.name.text ++ (front ++ "\x7d".toList) ++
      (back ++ "\x7d\n".toList ++ rest) := by
    simp [StructText.text, hbody]
  rw [htext] at hrest
  obtain ⟨m, hmatch, -, hstop, -, hgroup⟩ :=
    (StructText.leads bound s.name hfront _).matchAt? hrest
  rw [searchFrom_of_some hrest (by simp) hmatch hstop]
  refine ⟨_, _, rfl, fun hsame => ?_⟩
  have hfields : (lines (trim front)).filterMap field? = s.fields.map FieldText.declares := by
    have hgroup2 : m.group 2 = front := congrArg (Option.getD · []) (hgroup 2)
    rw [← hgroup2]
    exact (Struct.mk.inj hsame).2
  -- the field that holds the brace would be read from a text without one
  obtain ⟨f, hf, hholds⟩ := (s.mem_body_iff (by decide) (by decide)).mp h
  have hread : f.declares ∈ (lines (trim front)).filterMap field? :=
    hfields ▸ mem_map_of_mem hf
  obtain ⟨line, hline, hfield⟩ := mem_filterMap.mp hread
  have hmem := f.mem_of_field? hfield (by decide) hholds
  exact hfront (mem_of_mem_trim (mem_of_mem_lines hline hmem))

theorem searchFrom_texts_iff {ss : List StructText} (hrest : c.rest = ss.flatMap StructText.text) :
    (searchFrom (bodyPattern "struct") bound c).map readStruct = ss.map StructText.declares ↔
      ∀ s ∈ ss, '\x7d' ∉ s.body := by
  induction ss generalizing c with
  | nil =>
    rw [searchFrom_of_refuses hrest ⟨rfl, rfl⟩]
    simp
  | cons s ss ih =>
    rw [flatMap_cons] at hrest
    rw [map_cons, forall_mem_cons]
    by_cases hbody : '\x7d' ∈ s.body
    · obtain ⟨found, others, hfound, hne⟩ := @readStruct_ne_of_mem c bound s _ hbody hrest
      rw [hfound]
      simp [hbody, hne]
    · rw [reads_struct hbody _ bound c hrest, singleton_append, cons.injEq, ih rfl]
      simp [hbody]

/-- **`structs` are read back exactly if no field holds a closing brace.** -/
theorem structs_text_iff (ss : List StructText) :
    structs (ss.flatMap StructText.text) = ss.map StructText.declares ↔
      ∀ s ∈ ss, ∀ f ∈ s.fields, ¬ f.Holds '\x7d' := by
  have hbody : ∀ s : StructText, '\x7d' ∉ s.body ↔ ∀ f ∈ s.fields, ¬ f.Holds '\x7d' := by
    intro s
    rw [s.mem_body_iff (by decide) (by decide)]
    simp
  have hstructs : structs (ss.flatMap StructText.text) =
      (searchFrom (bodyPattern "struct") (ss.flatMap StructText.text).length
        (.start (ss.flatMap StructText.text))).map readStruct := rfl
  simp only [hstructs, ← hbody]
  exact searchFrom_texts_iff rfl

end CodeAtlas.Go
