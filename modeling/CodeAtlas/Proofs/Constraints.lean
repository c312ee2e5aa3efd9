import CodeAtlas.Proofs.Columns

/-!
# Constraints of tables

A constraint of a table that stands in one line is read as a column, as every part in one line is:
`PRIMARY KEY (a, b)` as a column `PRIMARY` of type `KEY`, a foreign key as a column `FOREIGN` of
type `KEY`. The list of names in parentheses then follows the type, and no key is found in it
(`find?_primaryKey_names`). Where a foreign key refers to one column, the reference is taken for one
of the column `FOREIGN`; where it refers to several, it is lost (`Reference.find?_reference`). So a
table with such constraints is never read as the table that is meant.
-/

open List

namespace CodeAtlas

open Pattern Outline Text

namespace Sql

variable {bound : Nat} {rest : List Char}

/-! ## Lists of names -/

/-- At least one name. -/
structure NameList where
  first : Identifier
  more : List Identifier

namespace NameList

variable (n : NameList)

def names : List (List Char) :=
  (n.first :: n.more).map Identifier.text

def inner : List Char :=
  joinWith [',', ' '] n.names

def text : List Char :=
  '(' :: n.inner ++ [')']

theorem isAsciiWord_of_mem_names {name : List Char} (h : name ∈ n.names) :
    ∀ c ∈ name, isAsciiWord c := by
  obtain ⟨i, -, rfl⟩ := mem_map.mp h
  exact i.word

theorem of_mem_inner {c : Char} (h : c ∈ n.inner) : c = ',' ∨ c = ' ' ∨ isAsciiWord c := by
  rcases mem_joinWith h with h | ⟨name, hname, hc⟩
  · have hseparator : c = ',' ∨ c = ' ' := by simpa using h
    exact hseparator.imp_right .inl
  · exact .inr (.inr (n.isAsciiWord_of_mem_names hname c hc))

theorem whole : Whole n.text := by
  refine .enclosed fun c hc => ?_
  rcases n.of_mem_inner hc with rfl | rfl | hc
  · decide
  · decide
  · exact notAmong_of_accepts (isWord_of_isAsciiWord hc) (by decide)

end NameList

theorem apart_of_isBlank {text : List Char} (h : ∀ c ∈ text, isBlank c = false) : Apart text := by
  refine Pairwise.isChain (pairwise_of_forall_mem_list fun c _ b hb hblank => ?_)
  rw [h b hb] at hblank
  cases hblank

theorem apart_append {front back : List Char} (h : Apart front) (h' : Apart back)
    (hjoin : back.head?.any isBlank = false ∨ ∀ c ∈ front.getLast?, c.toNat < 65) :
    Apart (front ++ back) := by
  refine h.append h' fun c hc b hb hblank => ?_
  rcases hjoin with hhead | hlast
  · rw [Option.mem_def.mp hb] at hhead
    exact absurd hblank (Bool.eq_false_iff.mp hhead)
  · exact hlast c hc

theorem apart_joinWith {pieces : List (List Char)}
    (h : ∀ piece ∈ pieces, ∀ c ∈ piece, isBlank c = false) :
    Apart (joinWith [',', ' '] pieces) := by
  induction pieces with
  | nil => exact .nil
  | cons piece pieces ih =>
    have hpiece := apart_of_isBlank (h piece mem_cons_self)
    cases pieces with
    | nil => exact hpiece
    | cons piece' pieces =>
      have hcomma : Apart [',', ' '] := by
        refine isChain_cons_cons.mpr ⟨fun _ => by decide, .singleton _⟩
      rw [joinWith_cons_cons]
      refine apart_append (apart_append hpiece hcomma (.inl rfl))
        (ih fun q hq => h q (mem_cons_of_mem _ hq)) (.inr fun c hc => ?_)
      obtain rfl : ' ' = c := by simpa using hc
      decide

namespace NameList

variable (n : NameList)

theorem apart : Apart n.text := by
  have hinner : Apart n.inner := apart_joinWith fun name hname c hc =>
    isBlank_of_isAsciiWord (n.isAsciiWord_of_mem_names hname c hc)
  have hopen : Apart ('(' :: n.inner) := by
    refine apart_append (.singleton '(') hinner (.inr fun c hc => ?_)
    obtain rfl : '(' = c := by simpa using hc
    decide
  exact apart_append hopen (.singleton ')') (.inl rfl)

end NameList

theorem isKeyword_primary : IsKeyword "PRIMARY" :=
  ⟨by decide, by decide⟩

theorem isKeyword_references : IsKeyword "REFERENCES" :=
  ⟨by decide, by decide⟩

def referenceTail : Pattern :=
  ticked (group 1 (many1 isWord)) ++ (blanks ++ (lit "(" ++
    (ticked (group 2 (many1 isWord)) ++ lit ")")))

theorem passes_referencePattern {gap : List Char}
    (h : Passes (litAnyCase "REFERENCES" ++ blanks1 ++ referenceTail) gap rest) :
    Passes referencePattern gap rest := h

theorem find?_eq_none_of_passes {p : Pattern} {text : List Char} (h : Passes p text [])
    (hend : p.Refuses none) : p.find? text = none := by
  rw [find?_eq_firstAt?]
  exact h.firstAt?_eq_none hend rfl

theorem refuses_primaryKeyPattern_none : primaryKeyPattern.Refuses none :=
  ⟨by decide +kernel, by decide +kernel⟩

theorem find?_primaryKey_names (n : NameList) : primaryKeyPattern.find? n.text = none :=
  find?_eq_none_of_passes (isKeyword_primary.passes_of_apart (by decide) n.apart)
    refuses_primaryKeyPattern_none

theorem find?_reference_names (n : NameList) : referencePattern.find? n.text = none :=
  find?_eq_none_of_passes
    (passes_referencePattern (isKeyword_references.passes_of_apart (by decide) n.apart))
    refuses_referencePattern_none

/-! ## Foreign keys -/

/-- A foreign key: its columns, the table it refers to and the columns there. -/
structure Reference where
  columns : NameList
  table : Identifier
  referred : NameList

namespace Reference

variable (r : Reference)

/-- What follows the words `FOREIGN KEY`. -/
def remainder : List Char :=
  r.columns.text ++ " REFERENCES ".toList ++ (r.table.text ++ ' ' :: r.referred.text)

/-- The keys that are written: each column with the column it refers to. -/
def keys : List ForeignKey :=
  zipWith (fun column referred =>
    ⟨String.ofList column, String.ofList r.table.text, String.ofList referred⟩)
    r.columns.names r.referred.names

/-- The keys that are read: the column `FOREIGN` refers to the one column in the list. -/
def readKeys : List ForeignKey :=
  if r.referred.more.isEmpty then
    [⟨"FOREIGN", String.ofList r.table.text, String.ofList r.referred.first.text⟩]
  else []

theorem remainder_eq : r.remainder = (r.columns.text ++ [' ']) ++ ("REFERENCES".toList ++
    ([' '] ++ (r.table.text ++ ' ' :: r.referred.text))) := by
  unfold remainder
  rw [append_assoc, append_assoc]
  rfl

/-- No keyword begins in front of the word `REFERENCES`. -/
theorem passes_columns {word : String} {q : Pattern} (hword : IsKeyword word) (rest : List Char) :
    Passes (litAnyCase word ++ blanks1 ++ q) (r.columns.text ++ [' ']) rest := by
  refine hword.passes_of_apart (by decide)
    (apart_append r.columns.apart (.singleton ' ') (.inr fun c hc => ?_))
  have hlast : r.columns.text.getLast? = some ')' := getLast?_concat ..
  obtain rfl : ')' = c := Option.some.inj (hlast.symm.trans hc)
  decide

/-- A keyword is found in a foreign key only at the word `REFERENCES`. -/
theorem passes_remainder {word : String} {q : Pattern} (hword : IsKeyword word)
    (hq : q.Refuses (some '(')) (hreferences : ∀ left, left <:+ "REFERENCES".toList →
      left.map foldCase = word.toList.map foldCase →
        (blanks1 ++ q).FailsAt (' ' :: (r.table.text ++ ' ' :: r.referred.text))) :
    Passes (litAnyCase word ++ blanks1 ++ q) r.remainder [] := by
  have hspace : ∀ rest, Passes (litAnyCase word ++ blanks1 ++ q) [' '] rest := fun rest => by
    have happart : Apart ([] ++ [' ']) := .singleton ' '
    exact hword.passes_of_apart (by decide) happart
  have htable : ∀ rest, Passes (litAnyCase word ++ blanks1 ++ q) r.table.text
      (' ' :: '(' :: rest) := fun rest =>
    hword.passes (fun c hc => r.table.isBlank_eq_false hc) (by decide)
      fun _ _ _ _ => .space rfl (.of_refuses hq)
  have hreferred : Passes (litAnyCase word ++ blanks1 ++ q) r.referred.text [] :=
    hword.passes_of_apart (by decide) r.referred.apart
  have hword' : Passes (litAnyCase word ++ blanks1 ++ q) "REFERENCES".toList
      (' ' :: (r.table.text ++ ' ' :: r.referred.text)) :=
    hword.passes (by decide) (by decide) fun _ => hreferences
  have hrest := (hspace _).append ((htable _).append ((hspace _).append hreferred))
  rw [remainder_eq]
  refine (r.passes_columns hword _).append (.append ?_ hrest)
  rw [append_nil]
  exact hword'

theorem find?_primaryKey : primaryKeyPattern.find? r.remainder = none := by
  have hletters : ∀ c ∈ "REFERENCES".toList, foldCase c ≠ 'p' := by decide
  have hkey : (keywords ["KEY"]).Refuses (some '(') := ⟨by decide, by decide⟩
  refine find?_eq_none_of_passes (r.passes_remainder isKeyword_primary hkey
    fun left hleft heq => ?_) refuses_primaryKeyPattern_none
  have hmem : 'p' ∈ left.map foldCase := by
    rw [heq]
    decide
  obtain ⟨c, hc, hfold⟩ := mem_map.mp hmem
  exact absurd hfold (hletters c (hleft.subset hc))

end Reference

theorem refuses_referenceTail : referenceTail.Refuses (some '(') :=
  ⟨by decide, by decide⟩

/-- The first parenthesis after the word `REFERENCES` is the one of the list, and in front of a
comma it does not close. -/
theorem failsAt_referenceTail (table : Identifier) {column after : List Char}
    (hcolumn : ∀ c ∈ column, isWord c) : (blanks1 ++ referenceTail).FailsAt
      (' ' :: (table.text ++ ' ' :: '(' :: (column ++ ',' :: after))) := by
  have hword : ∀ {c d : Char}, isWord c → isWord d = false → (c == d) = false := by
    rintro c d hc hd
    refine beq_eq_false_iff_ne.mpr ?_
    rintro rfl
    rw [hc] at hd
    cases hd
  have hclose : (ticked (group 2 (many1 isWord)) ++ lit ")").FailsAt (column ++ ',' :: after) :=
    .within (within_ticked 2)
      (.of_refuses fun c hc => ⟨hword (hcolumn c hc) (by decide), rfl⟩) rfl
      (.of_refuses ⟨rfl, rfl⟩)
  have hlist : (blanks ++ (lit "(" ++ (ticked (group 2 (many1 isWord)) ++ lit ")"))).FailsAt
      ([' '] ++ ("(".toList ++ (column ++ ',' :: after))) :=
    .within .span (.single (Refuses.append_left ⟨by decide, rfl⟩)) rfl hclose.lit_append
  exact .space (table.head?_isBlank _) (.within (within_ticked 1)
    (.of_refuses fun c hc => .of_heads rfl (forall_mem_cons.mpr ⟨table.isBlank_eq_false hc,
      forall_mem_singleton.mpr (hword (table.isWord hc) (by decide))⟩)) rfl hlist)

theorem leads_reference (table column : Identifier) (rest : List Char) :
    referencePattern.Leads bound ("REFERENCES".toList ++ [' '] ++ table.text ++ [' '] ++ "(".toList ++
      column.text ++ ")".toList) rest [(2, column.text), (1, table.text)] :=
  ((((((Leads.litAnyCase "REFERENCES" _).append (.space (table.head?_isBlank _))).append
    (leads_ticked table.ne_nil (fun _ => table.isWord) rfl)).append (.many (by decide) rfl)).append
      (.lit "(" _)).append (leads_ticked column.ne_nil (fun _ => column.isWord) rfl)).append
        (.lit ")" rest)

namespace Reference

variable (r : Reference)

/-- **`referencePattern` finds a reference of one column, or none.** -/
theorem find?_reference : ((referencePattern.find? r.remainder).toList.map fun m => (⟨"FOREIGN",
      String.ofList (m.group 1), String.ofList (m.group 2)⟩ : ForeignKey)) = r.readKeys := by
  have hinner : ∀ n : NameList, n.text = '(' :: (n.inner ++ [')']) := fun _ => rfl
  cases hmore : r.referred.more with
  | nil =>
    have hlist : r.referred.text = '(' :: (r.referred.first.text ++ [')']) := by
      rw [hinner, NameList.inner, NameList.names, hmore]
      rfl
    have hrest : (Cursor.start r.remainder).rest = (r.columns.text ++ [' ']) ++
        ("REFERENCES".toList ++ [' '] ++ r.table.text ++ [' '] ++ "(".toList ++
          r.referred.first.text ++ ")".toList ++ []) := by
      refine r.remainder_eq.trans ?_
      rw [hlist]
      simp only [append_assoc]
      rfl
    have hleads : referencePattern.Leads r.remainder.length _ [] _ :=
      leads_reference r.table r.referred.first []
    obtain ⟨m, hmatch, hgroups⟩ := hleads.firstAt?
      (passes_referencePattern (r.passes_columns isKeyword_references _)) hrest
    have htable : m.group? 1 = some r.table.text := hgroups 1
    have hcolumn : m.group? 2 = some r.referred.first.text := hgroups 2
    rw [find?_eq_firstAt?, hmatch, readKeys, hmore]
    simp only [Option.toList_some, map_singleton, Match.group, htable, hcolumn, Option.getD_some]
    rfl
  | cons name names =>
    have hlist : ∃ after, r.referred.text = '(' :: (r.referred.first.text ++ ',' :: after) := by
      refine ⟨' ' :: (joinWith [',', ' '] ((name :: names).map Identifier.text) ++ [')']), ?_⟩
      rw [hinner, NameList.inner, NameList.names, hmore, map_cons, map_cons, joinWith_cons_cons]
      simp
    obtain ⟨after, hlist⟩ := hlist
    have hpasses := r.passes_remainder isKeyword_references refuses_referenceTail
      fun left _ _ => by
        rw [hlist]
        exact failsAt_referenceTail r.table fun _ => r.referred.first.isWord
    rw [find?_eq_none_of_passes (passes_referencePattern hpasses) refuses_referencePattern_none,
      readKeys, hmore]
    rfl

end Reference

/-! ## Constraints as entries -/

/-- A text in parentheses, in one line and never cut. -/
structure Bracketed (text : List Char) : Prop where
  opens : text.head? = some '('
  closes : text.getLast? = some ')'
  line : '\n' ∉ text
  whole : Whole text

namespace NameList

variable (n : NameList)

theorem line : '\n' ∉ n.text := by
  intro hmem
  rw [text, cons_append, mem_cons, mem_append, mem_singleton] at hmem
  rcases hmem with h | h | h
  · cases h
  · rcases n.of_mem_inner h with h | h | h
    · cases h
    · cases h
    · exact absurd h (by decide)
  · cases h

theorem bracketed : Bracketed n.text :=
  ⟨rfl, getLast?_concat .., n.line, n.whole⟩

end NameList

theorem Reference.bracketed (r : Reference) : Bracketed r.remainder := by
  refine ⟨rfl, ?_, fun hmem => ?_, ?_⟩
  · have hlast : r.referred.text.getLast? = some ')' := r.referred.bracketed.closes
    have hne : r.referred.text ≠ [] := cons_ne_nil _ _
    have hsplit : r.remainder = (r.columns.text ++ " REFERENCES ".toList ++
        (r.table.text ++ [' '])) ++ r.referred.text := by
      rw [append_assoc _ (r.table.text ++ [' ']), append_assoc r.table.text]
      rfl
    rw [hsplit, getLast?_append_of_ne_nil _ hne, hlast]
  · rw [remainder_eq] at hmem
    simp only [mem_append, mem_cons, not_mem_nil, or_false] at hmem
    rcases hmem with (h | h) | h | h | h | h | h
    · exact r.columns.line h
    · cases h
    · revert h
      decide
    · cases h
    · exact absurd (r.table.word '\n' h) (by decide)
    · cases h
    · exact r.referred.line h
  · have hspace : Whole [' '] := .of_notAmong (by decide)
    have hword : Whole "REFERENCES".toList := .of_notAmong (by decide)
    rw [remainder_eq]
    exact (r.columns.whole.append hspace).append (hword.append (hspace.append
      ((whole_identifier r.table).append (hspace.append r.referred.whole))))

/-- A constraint of a table, which is read as a column of type `KEY`. -/
def keyEntry (word : Run isAsciiLetter) {body : List Char} (h : Bracketed body) :
    Entry where
  text := word.text ++ " KEY ".toList ++ body
  part := linePart word.text "KEY".toList body
  ne_nil := by simp
  firm := by
    refine ⟨?_, ?_⟩
    · rw [append_assoc, head?_append_of_ne_nil _ word.ne_nil]
      refine (Firm.of_forall fun c hc => ?_).head
      have hword := isWord_of_isAsciiLetter (word.all c hc)
      have hcomma : notAmong "," c = true := notAmong_of_accepts hword (by decide)
      rw [isBlank_of_isWord hword]
      simpa [notAmong] using hcomma
    · have hne : body ≠ [] := by
        rintro rfl
        cases h.opens
      rw [getLast?_append_of_ne_nil _ hne, h.closes]
      decide
  whole := by
    have hword : Whole word.text := .of_notAmong fun c hc =>
      notAmong_of_accepts (isWord_of_isAsciiLetter (word.all c hc)) (by decide)
    exact (hword.append (.of_notAmong (by decide))).append h.whole
  reads := by
    have hline : '\n' ∉ ' ' :: body := by
      intro hmem
      rcases mem_cons.mp hmem with hmem | hmem
      · cases hmem
      · exact h.line hmem
    have hhead : body.head?.any isBlank = false := by
      rw [h.opens]
      decide
    have hspace : (' ' :: body).head?.any isTypeChar = false :=
      (by decide : isTypeChar ' ' = false)
    have hread := readPart_line word.ne_nil
      (fun c hc => isWord_of_isAsciiLetter (word.all c hc)) (by decide : "KEY".toList ≠ [])
      (by decide) hspace hline
    have hbody : (' ' :: body).dropWhile isBlank = body := dropWhile_of_head hhead
    rw [hbody] at hread
    rw [append_assoc]
    exact hread

theorem Bracketed.trim {text : List Char} (h : Bracketed text) : trim text = text := by
  refine Firm.trim ⟨?_, ?_⟩
  · rw [h.opens]
    decide
  · rw [h.closes]
    decide

/-! ## Tables with constraints -/

/-- A column without constraints. -/
structure PlainColumn where
  name : Identifier
  type : ColumnType

namespace PlainColumn

variable (c : PlainColumn)

def text : List Char :=
  c.name.text ++ ' ' :: c.type.text

def column : Column :=
  ⟨String.ofList c.name.text, String.ofList c.type.text, ""⟩

def read : Column :=
  ⟨String.ofList c.name.text, String.ofList c.type.shown, String.ofList c.type.cut⟩

/-- A column without constraints as an entry. -/
def entry : Entry :=
  (⟨c.name, c.type, []⟩ : ColumnText).entry

theorem entry_text : c.entry.text = c.text := by
  show c.name.text ++ ' ' :: (c.type.text ++ []) = c.text
  rw [append_nil]
  rfl

theorem entry_part : c.entry.part = ⟨some c.read, [], []⟩ := by
  have hblank : ∀ e ∈ c.type.cut, isBlank e = false := fun e he => (c.type.of_mem_cut he).1
  have hremainder : (⟨c.name, c.type, []⟩ : ColumnText).remainder = c.type.cut := by
    show (c.type.cut ++ []).dropWhile isBlank = c.type.cut
    rw [append_nil]
    exact dropWhile_of_head (Firm.of_forall hblank).head
  have hkey : occursIn "primary key".toList (c.type.cut.map foldCase) = false := by
    rw [Bool.eq_false_iff, Ne, occursIn_iff]
    intro hoccurs
    have hmem : ' ' ∈ c.type.cut.map foldCase := hoccurs.subset (by decide)
    obtain ⟨e, he, hfold⟩ := mem_map.mp hmem
    have hspace := hblank e he
    rw [eq_of_foldCase (by decide) (by decide) hfold] at hspace
    revert hspace
    decide
  show (⟨c.name, c.type, []⟩ : ColumnText).part = _
  rw [ColumnText.part, hremainder, hkey]
  rfl

end PlainColumn

/-- A table of plain columns with a primary key and foreign keys. -/
structure KeyedTable where
  name : Identifier
  layout : Layout
  first : PlainColumn
  more : List PlainColumn
  key : NameList
  references : List Reference

def primaryWord : Run isAsciiLetter :=
  ⟨"PRIMARY".toList, by decide, by decide⟩

def foreignWord : Run isAsciiLetter :=
  ⟨"FOREIGN".toList, by decide, by decide⟩

theorem keyEntry_primary_part (n : NameList) : (keyEntry primaryWord n.bracketed).part =
    ⟨some ⟨"PRIMARY", "KEY", String.ofList n.text⟩, [], []⟩ := by
  show linePart "PRIMARY".toList "KEY".toList n.text = _
  rw [linePart, n.bracketed.trim, find?_primaryKey_names, find?_reference_names]
  rfl

theorem keyEntry_foreign_part (r : Reference) : (keyEntry foreignWord r.bracketed).part =
    ⟨some ⟨"FOREIGN", "KEY", String.ofList r.remainder⟩, [], r.readKeys⟩ := by
  show linePart "FOREIGN".toList "KEY".toList r.remainder = _
  rw [linePart, r.bracketed.trim, r.find?_primaryKey, String.ofList_toList, r.find?_reference]
  rfl

namespace KeyedTable

variable (d : KeyedTable)

def columns : List PlainColumn :=
  d.first :: d.more

/-- A table as written: its columns, its primary key and its foreign keys in parentheses, with a
comma and white space between them. -/
def text : List Char :=
  "CREATE TABLE ".toList ++ d.name.text ++ " (".toList ++
    (d.layout.lead ++ (joinWith (',' :: d.layout.gap)
      (d.columns.map PlainColumn.text ++ ("PRIMARY KEY ".toList ++ d.key.text) ::
        d.references.map fun r => "FOREIGN KEY ".toList ++ r.remainder) ++
      d.layout.trail)) ++ ");".toList

def declared : Table where
  schema := none
  name := String.ofList d.name.text
  columns := d.columns.map PlainColumn.column
  primaryKeys := (d.key.names.map String.ofList).eraseDups
  foreignKeys := d.references.flatMap Reference.keys

/-- The table that is read: each constraint is a column. -/
def read : Table where
  schema := none
  name := String.ofList d.name.text
  columns := d.columns.map PlainColumn.read ++ ⟨"PRIMARY", "KEY", String.ofList d.key.text⟩ ::
    d.references.map fun r => ⟨"FOREIGN", "KEY", String.ofList r.remainder⟩
  primaryKeys := []
  foreignKeys := d.references.flatMap Reference.readKeys

theorem read_ne_declared : d.read ≠ d.declared := by
  intro h
  have hlength := congrArg (fun t : Table => t.columns.length) h
  simp only [read, declared, length_append, length_map, length_cons] at hlength
  omega

/-- A table with constraints as a declaration. -/
def declaration : Declaration :=
  ⟨d.name, d.layout, d.first.entry, d.more.map PlainColumn.entry ++
    keyEntry primaryWord d.key.bracketed ::
      d.references.map fun r => keyEntry foreignWord r.bracketed⟩

theorem declaration_entries : d.declaration.entries = d.columns.map PlainColumn.entry ++
    keyEntry primaryWord d.key.bracketed ::
      d.references.map fun r => keyEntry foreignWord r.bracketed := rfl

theorem declaration_text : d.declaration.text = d.text := by
  have hentries : d.declaration.entries.map Entry.text =
      d.columns.map PlainColumn.text ++ ("PRIMARY KEY ".toList ++ d.key.text) ::
        d.references.map fun r => "FOREIGN KEY ".toList ++ r.remainder := by
    rw [declaration_entries, map_append, map_cons, map_map, map_map]
    refine congrArg₂ _ (map_congr_left fun c _ => c.entry_text) ?_
    rfl
  unfold Declaration.text Declaration.body entriesText
  rw [hentries]
  rfl

/-- **Constraints are read as columns.** -/
theorem declaration_table : d.declaration.table = d.read := by
  have hcolumns : d.declaration.table.columns = d.read.columns := by
    simp only [Declaration.table, declaration_entries, filterMap_append, filterMap_map,
      filterMap_cons, keyEntry_primary_part, Function.comp_def, keyEntry_foreign_part,
      PlainColumn.entry_part]
    exact congrArg₂ _ (congrFun filterMap_eq_map' d.columns)
      (congrArg _ (congrFun filterMap_eq_map' d.references))
  have hnil : ∀ {α β : Type} (l : List α), (l.flatMap fun _ => ([] : List β)) = [] :=
    fun l => flatMap_eq_nil_iff.mpr fun _ _ => rfl
  have hkeys : d.declaration.table.primaryKeys = d.read.primaryKeys := by
    have hnone : d.declaration.entries.flatMap (·.part.primaryKeys) = [] := by
      simp only [declaration_entries, flatMap_append, flatMap_map, flatMap_cons,
        keyEntry_primary_part, keyEntry_foreign_part, PlainColumn.entry_part, hnil, append_nil]
    rw [Declaration.table, hnone]
    rfl
  have hforeign : d.declaration.table.foreignKeys = d.read.foreignKeys := by
    simp only [Declaration.table, read, declaration_entries, flatMap_append, flatMap_map,
      flatMap_cons, keyEntry_primary_part, keyEntry_foreign_part, PlainColumn.entry_part,
      hnil, nil_append]
  exact Table.mk.injEq .. ▸ ⟨rfl, rfl, hcolumns, hkeys, hforeign⟩

end KeyedTable

theorem map_text_eq (ds : List KeyedTable) :
    ds.map KeyedTable.text = (ds.map KeyedTable.declaration).map Declaration.text := by
  rw [map_map]
  exact map_congr_left fun d _ => d.declaration_text.symm

/-- **`tables` reads a script of tables with constraints with a column for each constraint.** -/
theorem tables_keyed (ds : List KeyedTable) (ended : Bool) :
    tables (linesText (ds.map KeyedTable.text) ended) = ds.map KeyedTable.read := by
  rw [map_text_eq, tables_declarations, map_map]
  exact map_congr_left fun d _ => d.declaration_table

theorem return_not_mem_keyed (ds : List KeyedTable) (ended : Bool) :
    '\r' ∉ linesText (ds.map KeyedTable.text) ended := by
  rw [map_text_eq]
  exact return_not_mem_declarations _ ended

end Sql

/-! ## Files -/

namespace Survey

open Sql

/-- **Constraints of tables are not recognised.** A script that declares tables with a primary key
and foreign keys, each constraint in one line, is reported with a column `PRIMARY` and columns
`FOREIGN` in each table, without primary keys, and with a foreign key only where one column is
referred to. So the tables are those that are written only if there are none. -/
theorem constraints_read_as_columns (w : Workspace) (path : String) (single block : List Json)
    (ds : List KeyedTable) (ended : Bool)
    (hread : w.readFile path =
      .ok ((linesText (ds.map KeyedTable.text) ended).flatMap String.utf8EncodeChar)) :
    ∃ o : Sql.Outline,
      sqlWith w path single block = .ok ⟨path, some Language.sql.name, .sql o single block⟩ ∧
        o.tables = ds.map KeyedTable.read ∧ (o.tables = ds.map KeyedTable.declared ↔ ds = []) := by
  have htables : (outline (linesText (ds.map KeyedTable.text) ended)).tables =
      ds.map KeyedTable.read := tables_keyed ds ended
  refine ⟨_, plain_of_encode .sql _ hread (return_not_mem_keyed ds ended), htables, ?_⟩
  rw [htables, map_inj_left]
  constructor
  · intro h
    exact eq_nil_iff_forall_not_mem.mpr fun d hd => d.read_ne_declared (h d hd)
  · rintro rfl
    simp

/-- One column `c`, the key `(a, b)` and a reference from `f` to the column `g` of `r`. -/
def keyedTable : KeyedTable :=
  ⟨⟨['t'], by decide, by decide⟩, .oneLine,
    ⟨⟨['c'], by decide, by decide⟩, integer⟩, [],
    ⟨⟨['a'], by decide, by decide⟩, [⟨['b'], by decide, by decide⟩]⟩,
    [⟨⟨.f, []⟩, ⟨['r'], by decide, by decide⟩, ⟨⟨['g'], by decide, by decide⟩, []⟩⟩]⟩

def keyedTableText : List Char :=
  "CREATE TABLE t (c int, PRIMARY KEY (a, b), FOREIGN KEY (f) REFERENCES r (g));".toList

/-- A table with both kinds of constraints. -/
theorem constraints_read_as_columns_both :
    ∃ o : Sql.Outline,
      sqlWith (oneFile (keyedTableText.flatMap String.utf8EncodeChar)) "a.rb" [] [] =
        .ok ⟨"a.rb", some "sql", .sql o [] []⟩ ∧
      o.tables = [⟨none, "t", [⟨"c", "int", ""⟩, ⟨"PRIMARY", "KEY", "(a, b)"⟩,
        ⟨"FOREIGN", "KEY", "(f) REFERENCES r (g)"⟩], [], [⟨"FOREIGN", "r", "g"⟩]⟩] := by
  obtain ⟨o, hreport, htables, -⟩ := constraints_read_as_columns (oneFile
    ((linesText ([keyedTable].map KeyedTable.text) false).flatMap String.utf8EncodeChar)) "a.rb"
    [] [] [keyedTable] false (readFile_oneFile _)
  exact ⟨o, hreport, htables.trans (by decide)⟩

/-- The table is meant to have one column, a primary key of two columns and a foreign key. -/
theorem constraints_ne_declared :
    keyedTable.declared = ⟨none, "t", [⟨"c", "int", ""⟩], ["a", "b"], [⟨"f", "r", "g"⟩]⟩ ∧
      tables keyedTableText ≠ [keyedTable.declared] := by
  refine ⟨by decide, fun h => ?_⟩
  have hread : tables (linesText ([keyedTable].map KeyedTable.text) false) = [keyedTable.read] :=
    tables_keyed [keyedTable] false
  exact keyedTable.read_ne_declared (cons.inj (hread.symm.trans h)).1

end Survey

end CodeAtlas
