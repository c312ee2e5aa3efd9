import CodeAtlas.Outline.Sql
import CodeAtlas.Proofs.AnyCase

/-!
# Declarations of tables

The body of a table is cut at commas, but not at a comma after which a parenthesis closes before one
opens. An entry whose commas all stand within parentheses is `Whole`: it is never cut, and in front
of it a comma cuts. So the parts of a body that is written as entries with commas between are these
entries again (`cutFrom_entries`), however much white space stands around them, and a script of
declarations is read as one table for each (`tables_declarations`). What the entries mean is left to
the entries.
-/

open List

namespace CodeAtlas

/-! ## Cutting at matches -/

namespace Pattern

variable {p : Pattern} {bound : Nat} {c : Cursor} {text gap taken rest : List Char}

def cutFrom (p : Pattern) (bound : Nat) (c : Cursor) : List (List Char) :=
  splitFrom c.position c.rest (p.searchFrom bound c)

theorem split_eq_cutFrom (p : Pattern) (text : List Char) :
    p.split text = p.cutFrom text.length (.start text) := rfl

/-- `cutFrom` a text without a match leaves it one piece. -/
theorem Passes.cutFrom (h : Passes p text []) (hend : p.Refuses none) (hrest : c.rest = text) :
    cutFrom p bound c = [text] := by
  rw [Pattern.cutFrom, h.searchFrom_eq_nil hend hrest, splitFrom, hrest]

/-- For `cutFrom` the text before the first match is a piece, and cutting goes on after the
match. -/
theorem cutFrom_of_some {t : State} (hrest : c.rest = gap ++ (taken ++ rest))
    (h : Passes p gap (taken ++ rest)) (hne : taken ≠ [])
    (hadvance : advance bound p some ⟨c.pass gap (taken ++ rest), []⟩ = some t)
    (ht : t.cursor = c.pass (gap ++ taken) rest) :
    cutFrom p bound c = gap :: cutFrom p bound (c.pass (gap ++ taken) rest) := by
  have hmatch := (matchAt?_eq p bound (c.pass gap (taken ++ rest))).trans
    (congrArg (Option.map _) hadvance)
  have hstop : t.cursor.position = c.position + gap.length + taken.length := by
    rw [ht]
    show c.position + (gap ++ taken).length = _
    rw [length_append, Nat.add_assoc]
  rw [cutFrom, h.searchFrom hrest, searchFrom_of_some rfl hne hmatch hstop, splitFrom,
    Cursor.pass_pass, hrest]
  have hstart : (c.pass gap (taken ++ rest)).position - c.position = gap.length :=
    Nat.add_sub_cancel_left ..
  have hlength : t.cursor.position - c.position = (gap ++ taken).length := by
    rw [hstop, length_append]
    omega
  simp only [hstart, hlength]
  rw [take_left, ← append_assoc, drop_left, ht]
  rfl

end Pattern

open Pattern Outline Text

namespace Sql

variable {bound : Nat} {s : State} {rest : List Char}

/-! ## Separators -/

def nextParen (text : List Char) : Option Char :=
  text.find? fun c => c == '(' || c == ')'

theorem nextParen_append (front text : List Char) :
    nextParen (front ++ text) = (nextParen front).or (nextParen text) :=
  find?_append

theorem nextParen_of_notAmong {text : List Char} (h : ∀ c ∈ text, notAmong "()" c) :
    nextParen text = none := by
  refine find?_eq_none.mpr fun c hc => ?_
  have hnot := h c hc
  simpa [notAmong] using hnot

/-- What closes before anything opens is found by its next parenthesis. -/
theorem advance_closing_eq_none_iff :
    advance bound (many (notAmong "()") ++ lit ")") some s = none ↔
      nextParen s.cursor.rest ≠ some ')' := by
  rw [advance_eq_none_iff]
  constructor
  · intro hnone hnext
    obtain ⟨-, front, back, hsplit, hfront⟩ := find?_eq_some_iff_append.mp hnext
    have hflat : ∀ c ∈ front, notAmong "()" c := by
      intro c hc
      have hnot := hfront c hc
      simpa [notAmong] using hnot
    have hway := hnone ((s.pass front (')' :: back)).pass [')'] back) (mem_ways_append.mpr
      ⟨_, mem_ways_many.mpr ⟨front, _, ⟨hsplit, hflat⟩, rfl⟩, mem_ways_lit.mpr ⟨back, rfl, rfl⟩⟩)
    cases hway
  · intro hnext t ht
    obtain ⟨u, hu, ht⟩ := mem_ways_append.mp ht
    obtain ⟨taken, rest, ⟨hrest, htaken⟩, rfl⟩ := mem_ways_many.mp hu
    obtain ⟨rest', hrest', -⟩ := mem_ways_lit.mp ht
    have hrest' : rest = ')' :: rest' := hrest'
    rw [hrest, nextParen_append, nextParen_of_notAmong htaken, hrest'] at hnext
    exact absurd rfl hnext

/-- `partSeparator` takes a comma before an opening parenthesis, and the white space after it. -/
theorem advance_partSeparator {gap : List Char} (hrest : s.cursor.rest = ',' :: gap ++ rest)
    (hgap : ∀ c ∈ gap, isBlank c) (hhead : rest.head?.any isBlank = false)
    (hnext : nextParen rest ≠ some ')') :
    advance bound partSeparator some s = some (s.pass (',' :: gap) rest) := by
  have hcomma : advance bound partSeparator some s =
      advance bound blanks (advance bound (notAhead (many (notAmong "()") ++ lit ")")) some)
        (s.pass [','] (gap ++ rest)) := advance_lit hrest
  rw [hcomma]
  refine advance_many_of_some rfl hgap hhead ?_
  rw [State.pass_pass, singleton_append, advance, advance_closing_eq_none_iff.mpr]
  exact hnext

/-- `partSeparator` fails at a comma before a closing parenthesis. -/
theorem failsAt_partSeparator (h : nextParen rest = some ')') :
    partSeparator.FailsAt (',' :: rest) := by
  intro bound next s hrest
  have hcomma : advance bound partSeparator next s =
      advance bound blanks (advance bound (notAhead (many (notAmong "()") ++ lit ")")) next)
        (s.pass [','] rest) := advance_lit hrest
  rw [hcomma]
  refine advance_eq_none_iff.mpr fun t ht => ?_
  obtain ⟨taken, rest', ⟨hsplit, htaken⟩, rfl⟩ := mem_ways_many.mp ht
  have hsplit : rest = taken ++ rest' := hsplit
  -- white space moves no parenthesis
  have hblank : nextParen taken = none :=
    nextParen_of_notAmong fun c hc => notAmong_of_accepts (htaken c hc) (by decide)
  have hcloses : nextParen rest' = some ')' := by
    rwa [hsplit, nextParen_append, hblank, Option.none_or] at h
  rw [advance]
  split
  · rename_i hnone
    exact absurd hcloses (advance_closing_eq_none_iff.mp hnone)
  · rfl

theorem refuses_partSeparator {c : Char} (h : c ≠ ',') : partSeparator.Refuses (some c) := by
  have hcomma : (lit ",").Refuses (some c) := ⟨beq_eq_false_iff_ne.mpr h, rfl⟩
  exact hcomma.append_left.append_left

/-! ## Entries that are not cut -/

/-- A text within a body that is never cut and in front of which a comma cuts. Neither a semicolon
nor a carriage return stands in it. -/
structure Whole (text : List Char) : Prop where
  passes : ∀ rest, Passes partSeparator text rest
  opens : ∀ rest, nextParen rest ≠ some ')' → nextParen (text ++ rest) ≠ some ')'
  plain : ∀ c ∈ text, notAmong ";\r" c = true

namespace Whole

theorem of_notAmong {text : List Char} (h : ∀ c ∈ text, notAmong ",();\r" c) : Whole text := by
  have hnot : ∀ c ∈ text, c ≠ ',' ∧ notAmong "()" c ∧ notAmong ";\r" c := by
    intro c hc
    have hc := h c hc
    simp [notAmong] at hc ⊢
    grind
  refine ⟨fun rest => .of_refuses fun c hc => refuses_partSeparator (hnot c hc).1,
    fun rest hrest => ?_, fun c hc => (hnot c hc).2.2⟩
  rwa [nextParen_append, nextParen_of_notAmong fun c hc => (hnot c hc).2.1, Option.none_or]

/-- Commas within parentheses do not cut. -/
theorem enclosed {inner : List Char} (h : ∀ c ∈ inner, notAmong "();\r" c) :
    Whole ('(' :: inner ++ [')']) := by
  have hnot : ∀ c ∈ inner, notAmong "()" c ∧ notAmong ";\r" c := by
    intro c hc
    have hc := h c hc
    simp [notAmong] at hc ⊢
    grind
  have hinner : ∀ rest, Passes partSeparator (inner ++ [')']) rest := by
    intro rest
    refine .append (fun left hleft hne => ?_)
      (.of_refuses fun c hc => refuses_partSeparator (by rw [mem_singleton.mp hc]; decide))
    obtain ⟨c, left, rfl⟩ := exists_cons_of_ne_nil hne
    by_cases hc : c = ','
    · subst hc
      have hcloses : nextParen (left ++ ([')'] ++ rest)) = some ')' := by
        rw [nextParen_append, nextParen_of_notAmong fun c hc =>
          (hnot c (hleft.subset (mem_cons_of_mem _ hc))).1]
        rfl
      exact failsAt_partSeparator hcloses
    · exact .of_refuses (refuses_partSeparator hc)
  refine ⟨fun rest => passes_cons_iff.mpr ⟨.of_refuses (refuses_partSeparator (by decide)),
    hinner rest⟩, fun rest _ => ?_, fun c hc => ?_⟩
  · show some '(' ≠ some ')'
    decide
  · rw [cons_append, mem_cons, mem_append, mem_singleton] at hc
    rcases hc with rfl | hc | rfl
    · decide
    · exact (hnot c hc).2
    · decide

theorem append {text text' : List Char} (h : Whole text) (h' : Whole text') :
    Whole (text ++ text') := by
  refine ⟨fun rest => (h.passes _).append (h'.passes rest), fun rest hrest => ?_, fun c hc => ?_⟩
  · rw [append_assoc]
    exact h.opens _ (h'.opens rest hrest)
  · exact (mem_append.mp hc).elim (h.plain c) (h'.plain c)

theorem of_blank {text : List Char} (h : ∀ c ∈ text, isBlank c ∧ c ≠ '\r') : Whole text := by
  refine of_notAmong fun c hc => ?_
  have hnot : notAmong ",();" c := notAmong_of_accepts (h c hc).1 (by decide)
  have hreturn := (h c hc).2
  simp [notAmong] at hnot ⊢
  grind

end Whole

/-- One entry of a body: what it is written as and the part that is read there. -/
structure Entry where
  text : List Char
  part : Part
  ne_nil : text ≠ []
  firm : Firm (fun c => isBlank c || c == ',') text
  whole : Whole text
  reads : readPart text = part

theorem Entry.firm_isBlank (e : Entry) : Firm isBlank e.text := by
  have himp : ∀ o : Option Char, (o.any fun c => isBlank c || c == ',') = false →
      o.any isBlank = false := by
    intro o ho
    cases o with
    | none => rfl
    | some c => exact (Bool.or_eq_false_iff.mp ho).1
  exact ⟨himp _ e.firm.head, himp _ e.firm.last⟩

/-- `trimPart` takes white space around an entry away. -/
theorem Entry.trimPart_enclosed (e : Entry) (left right : List Char)
    (hleft : ∀ c ∈ left, isBlank c) (hright : ∀ c ∈ right, isBlank c) :
    trimPart (left ++ e.text ++ right) = e.text := by
  have hlast : e.text.reverse.head?.any (· == ',') = false := by
    rw [head?_reverse]
    have hfirm := e.firm.last
    cases hc : e.text.getLast? with
    | none => rfl
    | some c =>
      rw [hc] at hfirm
      exact (Bool.or_eq_false_iff.mp hfirm).2
  rw [trimPart, trim, trimBoth_enclosed left right hleft hright e.firm_isBlank,
    dropWhile_of_head hlast, reverse_reverse]

theorem Entry.head?_isBlank (e : Entry) (rest : List Char) :
    (e.text ++ rest).head?.any isBlank = false := by
  rw [head?_append_of_ne_nil _ e.ne_nil]
  exact e.firm_isBlank.head

/-! ## Bodies -/

/-- The white space of a body: before the first entry, after each comma, and after the last
entry. -/
structure Layout where
  lead : List Char
  gap : List Char
  trail : List Char
  blank : ∀ c ∈ lead ++ gap ++ trail, isBlank c = true ∧ c ≠ '\r'

/-- One space after each comma and no other white space. -/
def Layout.oneLine : Layout :=
  ⟨[], [' '], [], by decide⟩

/-- The entries of a body with commas between them. -/
def entriesText (gap : List Char) (es : List Entry) : List Char :=
  joinWith (',' :: gap) (es.map Entry.text)

theorem entriesText_cons_cons (gap : List Char) (e e' : Entry) (es : List Entry) :
    entriesText gap (e :: e' :: es) = e.text ++ ((',' :: gap) ++ entriesText gap (e' :: es)) := by
  rw [entriesText, map_cons, map_cons, joinWith_cons_cons, append_assoc]
  rfl

section Body

variable {gap : List Char} (hgap : ∀ c ∈ gap, isBlank c = true)

include hgap

theorem nextParen_entriesText (es : List Entry) (hrest : nextParen rest ≠ some ')') :
    nextParen (entriesText gap es ++ rest) ≠ some ')' := by
  have hseparator : nextParen (',' :: gap) = none := by
    refine nextParen_of_notAmong fun c hc => ?_
    rcases mem_cons.mp hc with rfl | hc
    · decide
    · exact notAmong_of_accepts (hgap c hc) (by decide)
  induction es with
  | nil => exact hrest
  | cons e es ih =>
    cases es with
    | nil => exact e.whole.opens _ hrest
    | cons e' es =>
      rw [entriesText_cons_cons, append_assoc, append_assoc]
      refine e.whole.opens _ ?_
      rwa [nextParen_append, hseparator, Option.none_or]

/-- **`cutFrom` a body gives its entries.** -/
theorem cutFrom_entries (lead : List Char) {trail : List Char} (e : Entry) (es : List Entry)
    (hlead : ∀ c ∈ lead, isBlank c ∧ c ≠ '\r')
    (htrail : ∀ c ∈ trail, isBlank c ∧ c ≠ '\r') {c : Cursor}
    (hrest : c.rest = lead ++ (entriesText gap (e :: es) ++ trail)) :
    (partSeparator.cutFrom bound c).map (fun part => readPart (trimPart part)) =
      (e :: es).map Entry.part := by
  -- along the entries: each is a piece, and cutting goes on with the next one after its comma
  induction es generalizing e lead c with
  | nil =>
    have hpasses : Passes partSeparator (lead ++ e.text ++ trail) [] :=
      (((Whole.of_blank hlead).append e.whole).append (.of_blank htrail)).passes []
    have hrest : c.rest = lead ++ e.text ++ trail := by rw [hrest, append_assoc]; rfl
    rw [hpasses.cutFrom ⟨rfl, rfl⟩ hrest, map_singleton,
      e.trimPart_enclosed _ _ (fun c hc => (hlead c hc).1) fun c hc => (htrail c hc).1, e.reads]
    rfl
  | cons e' es ih =>
    have hopen : nextParen (entriesText gap (e' :: es) ++ trail) ≠ some ')' := by
      refine nextParen_entriesText hgap _ ?_
      rw [nextParen_of_notAmong fun c hc => notAmong_of_accepts (htrail c hc).1 (by decide)]
      decide
    have hhead : (entriesText gap (e' :: es) ++ trail).head?.any isBlank = false := by
      cases es with
      | nil => exact e'.head?_isBlank _
      | cons e'' es =>
        rw [entriesText_cons_cons, append_assoc]
        exact e'.head?_isBlank _
    have hrest : c.rest =
        (lead ++ e.text) ++ ((',' :: gap) ++ (entriesText gap (e' :: es) ++ trail)) := by
      rw [hrest, entriesText_cons_cons]
      simp only [append_assoc]
    have hpasses := ((Whole.of_blank hlead).append e.whole).passes
      ((',' :: gap) ++ (entriesText gap (e' :: es) ++ trail))
    have htrim : trimPart (lead ++ e.text) = e.text := by
      have henclosed := e.trimPart_enclosed lead [] (fun c hc => (hlead c hc).1) (by simp)
      rwa [append_nil] at henclosed
    rw [cutFrom_of_some hrest hpasses (cons_ne_nil _ _)
      (advance_partSeparator rfl hgap hhead hopen) (Cursor.pass_pass ..), map_cons, htrim,
      e.reads, ih [] e' (by simp) rfl]
    rfl

end Body

/-! ## Declarations -/

/-- A table with its entries. -/
structure Declaration where
  name : Identifier
  layout : Layout
  first : Entry
  more : List Entry

namespace Declaration

def entries (d : Declaration) : List Entry :=
  d.first :: d.more

def body (d : Declaration) : List Char :=
  d.layout.lead ++ (entriesText d.layout.gap d.entries ++ d.layout.trail)

def text (d : Declaration) : List Char :=
  "CREATE TABLE ".toList ++ d.name.text ++ " (".toList ++ d.body ++ ");".toList

def table (d : Declaration) : Table where
  schema := none
  name := String.ofList d.name.text
  columns := d.entries.filterMap (·.part.column)
  primaryKeys := (d.entries.flatMap (·.part.primaryKeys)).eraseDups
  foreignKeys := d.entries.flatMap (·.part.foreignKeys)

variable (d : Declaration)

theorem blank_lead : ∀ c ∈ d.layout.lead, isBlank c ∧ c ≠ '\r' :=
  fun c hc => d.layout.blank c (by simp [hc])

theorem blank_gap : ∀ c ∈ d.layout.gap, isBlank c ∧ c ≠ '\r' :=
  fun c hc => d.layout.blank c (by simp [hc])

theorem blank_trail : ∀ c ∈ d.layout.trail, isBlank c ∧ c ≠ '\r' :=
  fun c hc => d.layout.blank c (by simp [hc])

theorem parts_body : parts d.body = d.entries.map Entry.part := by
  rw [parts, split_eq_cutFrom]
  exact cutFrom_entries (fun c hc => (d.blank_gap c hc).1) _ _ _ d.blank_lead d.blank_trail rfl

theorem notAmong_of_mem_body {c : Char} (h : c ∈ d.body) : notAmong ";\r" c := by
  have hblank : ∀ {text : List Char}, (∀ c ∈ text, isBlank c ∧ c ≠ '\r') → c ∈ text →
      notAmong ";\r" c := fun htext hc => (Whole.of_blank htext).plain c hc
  rw [body, mem_append, mem_append] at h
  rcases h with h | h | h
  · exact hblank d.blank_lead h
  · rcases mem_joinWith h with h | ⟨text, htext, hc⟩
    · rcases mem_cons.mp h with rfl | h
      · decide
      · exact hblank d.blank_gap h
    · obtain ⟨e, -, rfl⟩ := mem_map.mp htext
      exact e.whole.plain c hc
  · exact hblank d.blank_trail h

end Declaration

/-! ## The pattern of a table -/

/-- `ticked` takes word characters and backticks. -/
theorem within_ticked (index : Nat) : (ticked (group index (many1 isWord))).Within
    fun c => isWord c || c == '`' := by
  intro taken groups h
  simp [ticked] at h
  obtain ⟨left, _, word, ⟨hleft, -, hword⟩, right, _, hright, rfl, -⟩ := h
  intro c hc
  grind

/-- `ticked` takes a name without backticks as it stands. -/
theorem leads_ticked {index : Nat} {name : List Char} (hne : name ≠ [])
    (hname : ∀ c ∈ name, isWord c) (hend : (rest.head?.any fun c => isWord c || c == '`') = false) :
    (ticked (group index (many1 isWord))).Leads bound name rest [(index, name)] := by
  have htick : ∀ {text : List Char}, text.head?.any (· == '`') = false →
      (opt (lit "`")).Leads bound [] text [] := fun htext => .opt_nil (.of_refuses ⟨htext, rfl⟩)
  have hhead : (name ++ rest).head?.any (· == '`') = false := by
    obtain ⟨c, more, rfl⟩ := exists_cons_of_ne_nil hne
    refine beq_eq_false_iff_ne.mpr ?_
    rintro rfl
    exact absurd (hname '`' mem_cons_self) (by decide)
  have hstop : rest.head?.any isWord = false ∧ rest.head?.any (· == '`') = false := by
    cases hc : rest.head? with
    | none => exact ⟨rfl, rfl⟩
    | some c =>
      rw [hc] at hend
      exact Bool.or_eq_false_iff.mp hend
  have hleads := ((htick hhead).append ((Leads.many1 hne hname hstop.1).group index)).append
    (htick hstop.2)
  rwa [append_nil] at hleads

/-- `statementEnd` fails where two more characters follow, unless with a semicolon. -/
theorem failsAt_statementEnd {c d : Char} (hc : c ≠ ';') :
    statementEnd.FailsAt (c :: d :: rest) := by
  have hend : ∀ (e : Char) (text : List Char), textEnd.FailsAt (e :: text) := by
    intro e text bound next s hrest
    rw [textEnd, advance, hrest]
    exact if_neg Bool.false_ne_true
  have hfeed : (lit "\n" ++ textEnd).FailsAt (c :: d :: rest) := by
    by_cases hc : c = '\n'
    · subst hc
      exact FailsAt.lit_append (hend d rest)
    · have hrefuses : (lit "\n").Refuses (some c) := ⟨beq_eq_false_iff_ne.mpr hc, rfl⟩
      exact (FailsAt.of_refuses hrefuses).append textEnd
  have hsemicolon : (lit ";").Refuses (some c) := ⟨beq_eq_false_iff_ne.mpr hc, rfl⟩
  exact .either (.of_refuses hsemicolon) (.either (hend c _) hfeed.ahead)

theorem passes_bodyEnd {body : List Char} (hbody : ';' ∉ body) :
    Passes (lit ")" ++ (blanks ++ statementEnd)) body (')' :: ';' :: rest) := by
  have hinside : Passes statementEnd body (')' :: ';' :: rest) := by
    intro left hleft hne
    obtain ⟨c, left, rfl⟩ := exists_cons_of_ne_nil hne
    have hc : c ≠ ';' := by
      rintro rfl
      exact hbody (hleft.subset mem_cons_self)
    cases left with
    | nil | cons _ _ => exact failsAt_statementEnd hc
  intro left hleft hne
  obtain ⟨c, left, rfl⟩ := exists_cons_of_ne_nil hne
  have hblanks : (blanks ++ statementEnd).FailsAt (left ++ ')' :: ';' :: rest) :=
    .within .span (hinside.of_suffix ((suffix_cons c left).trans hleft)) rfl
      (failsAt_statementEnd (by decide))
  by_cases hc : c = ')'
  · subst hc
    exact FailsAt.lit_append hblanks
  · have hrefuses : (lit ")").Refuses (some c) := ⟨beq_eq_false_iff_ne.mpr hc, rfl⟩
    exact (FailsAt.of_refuses hrefuses).append _

/-- `tablePattern` in front of the name. -/
def tableHead : Pattern :=
  keywords ["CREATE", "TABLE"] ++ blanks1 ++ ifNotExists ++
    opt (ticked (group 1 (many1 isWord)) ++ lit ".")

def tableRest : Pattern :=
  ticked (group 2 (many1 isWord)) ++ (blanks ++ (lit "(" ++ (group 3 (fewest anyChar) ++
    (lit ")" ++ (blanks ++ statementEnd)))))

section TableHead

variable (name : Identifier)

theorem failsAt_ifNotExists_name :
    (keywords ["IF", "NOT", "EXISTS"]).FailsAt (name.text ++ ' ' :: '(' :: rest) := by
  have hkeyword : IsKeyword "IF" := ⟨by decide, by decide⟩
  have hnot : (keywords ["NOT", "EXISTS"]).Refuses (some '(') := ⟨by decide, by decide⟩
  have hpasses : Passes (litAnyCase "IF" ++ blanks1 ++ keywords ["NOT", "EXISTS"]) name.text
      (' ' :: '(' :: rest) :=
    hkeyword.passes (fun c hc => name.isBlank_eq_false hc) (by decide)
      fun _ _ _ _ => .space rfl (.of_refuses hnot)
  exact hpasses _ suffix_rfl name.ne_nil

theorem failsAt_schema_name : (ticked (group 1 (many1 isWord)) ++ lit ".").FailsAt
    (name.text ++ ' ' :: '(' :: rest) := by
  have hdot : (lit ".").Refuses (some ' ') := ⟨by decide, rfl⟩
  refine .within (within_ticked 1) (.of_refuses fun c hc => ⟨?_, rfl⟩) rfl (.of_refuses hdot)
  refine beq_eq_false_iff_ne.mpr ?_
  rintro rfl
  exact absurd (name.isWord hc) (by decide)

theorem leads_tableHead :
    tableHead.Leads bound "CREATE TABLE ".toList (name.text ++ ' ' :: '(' :: rest) [] := by
  have hwords : (keywords ["CREATE", "TABLE"] ++ blanks1).Leads bound "CREATE TABLE ".toList
      ([] ++ ([] ++ (name.text ++ ' ' :: '(' :: rest))) [] :=
    (((Leads.litAnyCase "CREATE" _).append (.space rfl)).append (.litAnyCase "TABLE" _)).append
      (.space (name.head?_isBlank _))
  exact (hwords.append (.opt_nil ((failsAt_ifNotExists_name name).append blanks1))).append
    (.opt_nil (failsAt_schema_name name))

end TableHead

namespace Declaration

variable (d : Declaration)

theorem leads_tableRest (rest : List Char) :
    tableRest.Leads bound (d.name.text ++ ([' '] ++ ("(".toList ++ (d.body ++ ");".toList)))) rest
      [(3, d.body), (2, d.name.text)] := by
  have hbody : ';' ∉ d.body := fun hmem => absurd (d.notAmong_of_mem_body hmem) (by decide)
  have hend : (lit ")" ++ (blanks ++ statementEnd)).Leads bound ");".toList rest [] :=
    (Leads.lit ")" _).append ((Leads.many (forall_mem_nil _) rfl).append (.either (.lit ";" rest)))
  exact (leads_ticked d.name.ne_nil (fun c hc => d.name.isWord hc) rfl).append
    ((Leads.many (by decide) rfl).append
      ((Leads.lit "(" _).append (.group_fewest (passes_bodyEnd hbody) hend)))

/-- **`tablePattern` matches a declaration as a whole**, wherever it stands. -/
theorem leads_tablePattern (rest : List Char) :
    tablePattern.Leads bound d.text rest [(3, d.body), (2, d.name.text)] := by
  have htext : d.text = "CREATE TABLE ".toList ++
      (d.name.text ++ ([' '] ++ ("(".toList ++ (d.body ++ ");".toList)))) := by
    unfold text
    rw [append_assoc, append_assoc, append_assoc]
    rfl
  rw [htext]
  refine .of_advance_eq (p := tableHead ++ tableRest) (fun _ _ => rfl) ?_
  refine Leads.append ?_ (d.leads_tableRest rest)
  rw [append_assoc]
  exact leads_tableHead d.name

theorem tableOf_eq {m : Match}
    (h : ∀ index, m.group? index = [(3, d.body), (2, d.name.text)].lookup index) :
    tableOf m = d.table := by
  have hschema : m.group? 1 = none := h 1
  have hname : m.group? 2 = some d.name.text := h 2
  have hbody : m.group? 3 = some d.body := h 3
  unfold tableOf table
  rw [hschema, Match.group, Match.group, hname, hbody, Option.getD_some, Option.getD_some,
    d.parts_body]
  simp only [filterMap_map, flatMap_map, Option.map_none]
  rfl

end Declaration

/-! ## Scripts -/

theorem refuses_tablePattern_feed : tablePattern.Refuses (some '\n') :=
  ⟨by decide +kernel, by decide +kernel⟩

/-- **`tables` reads a script of declarations as their tables**, in their order. -/
theorem tables_declarations (ds : List Declaration) (ended : Bool) :
    tables (linesText (ds.map Declaration.text) ended) = ds.map Declaration.table := by
  have hend : tablePattern.Refuses none := ⟨by decide +kernel, by decide +kernel⟩
  have hlines : ∀ front d back, ds = front ++ d :: back → Reads tablePattern tableOf
      (Declaration.text d) (some d.table).toList (afterLine (back.map Declaration.text) ended) :=
    fun _ d _ _ => Reads.of_leads (cons_ne_nil _ _) (fun _ => d.leads_tablePattern _)
      fun _ => d.tableOf_eq
  rw [tables, findAll_linesText refuses_tablePattern_feed hend hlines]
  exact congrFun filterMap_eq_map' ds

/-- A script of declarations is free of carriage returns, so a file keeps it as it is. -/
theorem return_not_mem_declarations (ds : List Declaration) (ended : Bool) :
    '\r' ∉ linesText (ds.map Declaration.text) ended := by
  have hone : ∀ d : Declaration, '\r' ∉ d.text := by
    intro d hmem
    unfold Declaration.text at hmem
    simp only [mem_append] at hmem
    rcases hmem with (((hmem | hmem) | hmem) | hmem) | hmem
    · revert hmem
      decide
    · exact absurd (d.name.word _ hmem) (by decide)
    · revert hmem
      decide
    · exact absurd (d.notAmong_of_mem_body hmem) (by decide)
    · revert hmem
      decide
  intro hmem
  rcases mem_append.mp hmem with hmem | hmem
  · rcases mem_joinWith hmem with hmem | ⟨text, htext, hc⟩
    · revert hmem
      decide
    · obtain ⟨d, -, rfl⟩ := mem_map.mp htext
      exact hone d hc
  · cases ended with
    | false => cases hmem
    | true => exact absurd hmem (by decide)

end Sql

end CodeAtlas
