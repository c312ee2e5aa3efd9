import CodeAtlas.Proofs.DocComments
import CodeAtlas.Proofs.ImportTexts

/-!
# Functions bound to variables

A function is found by its start, up to its arrow, and its parameters by a second search, from that
start on to two hundred characters behind the arrow. The second search is for parentheses before an
arrow. Parameters in parentheses are the first that it meets. For a parameter without parentheses it
goes on behind the function, so what is reported is what the next lines hold, if they are near
enough (`ArrowText.reportedParams`). All else depends on the text up to the arrow alone: no other
function reaches into a declaration (`stop_le_or_arrowHead`), except that a word `export` before it
belongs to it.
-/

open List

namespace CodeAtlas

open Pattern Text Outline

namespace JavaScript

variable {bound : Nat} {s t : State} {left tail : List Char}
variable {front rest before : List Char}

/-! ## Declarations as written -/

/-- Parameters: one name, or names in parentheses. -/
inductive ArrowParams where
  | bare (name : Name)
  | list (names : List Name)

namespace ArrowParams

def text : ArrowParams → List Char
  | bare name => name.text
  | list names => '(' :: (joinWith [',', ' '] (names.map Run.text) ++ [')'])

def names : ArrowParams → List Name
  | bare name => [name]
  | list names => names

/-- Whether parameters stand in parentheses. -/
def isList : ArrowParams → Bool
  | bare _ => false
  | list _ => true

/-- Whether parameters are taken for the word `async`. -/
def isAsync : ArrowParams → Bool
  | bare name => name.text == "async".toList
  | list _ => false

end ArrowParams

/-- A function bound to a variable. -/
structure ArrowText where
  name : Name
  params : ArrowParams
  body : List Char
  plain : ∀ c ∈ body, notAmong "=()" c = true

/-- A declaration up to the equals sign. -/
def ArrowText.lead (d : ArrowText) : List Char :=
  "const ".toList ++ d.name.text ++ [' ']

def ArrowText.start (d : ArrowText) : List Char :=
  d.lead ++ '=' :: ' ' :: (d.params.text ++ " =>".toList)

def ArrowText.text (d : ArrowText) : List Char :=
  d.start ++ ' ' :: (d.body ++ [';'])

/-! ## What is reported -/

def foundParams (text : List Char) : List String :=
  ((arrowParamsPattern.find? text).map fun m => paramList (m.group 1)).getD []

def arrowEntry (code : List Char) (m : Match) : FunctionEntry :=
  ⟨String.ofList (m.group 3), foundParams (m.source.take (m.stop + 200 - m.start)),
    (m.group? 4).isSome, (m.group? 1).isSome, true, docBefore? code m.start⟩

theorem arrowFunctions_eq (code : List Char) :
    arrowFunctions code = (arrowPattern.findAll code).map (arrowEntry code) := rfl

def around (position : Nat) (m : Match) : Bool :=
  decide (m.start ≤ position) && decide (position < m.stop)

/-- The entry whose match of `arrowPattern` is around a position. -/
def arrowEntryAt? (code : List Char) (position : Nat) : Option FunctionEntry :=
  ((arrowPattern.findAll code).find? (around position)).map (arrowEntry code)

variable {code : List Char} {position : Nat} {d : ArrowText} {c : Char}

theorem mem_functions_of_arrowEntryAt? {entry : FunctionEntry}
    (h : arrowEntryAt? code position = some entry) : entry ∈ functions code := by
  obtain ⟨m, hm, rfl⟩ := Option.map_eq_some_iff.mp h
  rw [functions, arrowFunctions_eq]
  exact mem_append_right _ (mem_map_of_mem (mem_of_find?_eq_some hm))

/-- The parameters that are reported for a declaration: those that are written in parentheses, or
the first in parentheses near enough behind the declaration. -/
def ArrowText.reportedParams (d : ArrowText) (rest : List Char) : List String :=
  match d.params with
  | .list names => reported names
  | .bare _ => foundParams (rest.take (197 - d.body.length))

/-! ## Where a function begins -/

/-- The word `export` and white space. -/
def IsExport (text : List Char) : Prop :=
  ∃ gap, text = "export".toList ++ gap ∧ gap ≠ [] ∧ Blank gap

/-- What stands before the equals sign: perhaps `export`, then a keyword, a name and white space. -/
def ArrowHead (text : List Char) : Prop :=
  ∃ lead, (lead = [] ∨ IsExport lead) ∧ ∃ keyword ∈ ["const", "let", "var"],
    ∃ gap name gap', gap ≠ [] ∧ Blank gap ∧ name ≠ [] ∧ (∀ c ∈ name, isWord c = true) ∧
      Blank gap' ∧ text = lead ++ keyword.toList ++ gap ++ name ++ gap'

def arrowLead : Pattern :=
  opt (group 1 (lit "export" ++ blanks1)) ++ group 2 (anyOf ["const", "let", "var"]) ++ blanks1 ++
    group 3 (many1 isWord) ++ blanks

/-- `arrowPattern` between the equals sign and the arrow. -/
def arrowMiddle : Pattern :=
  blanks ++ opt (group 4 (lit "async" ++ blanks1)) ++ opt (lit "(") ++ group 5 (many (notAmong "=")) ++
    opt (lit ")") ++ blanks

theorem advance_arrowPattern (next : State → Option State) : advance bound arrowPattern next s =
      advance bound (arrowLead ++ (lit "=" ++ (arrowMiddle ++ lit "=>"))) next s := by
  simp only [arrowPattern, arrowLead, arrowMiddle, advance_append]

theorem arrowHead_of_spells {taken : List Char} {groups : List (Nat × List Char)}
    (h : arrowLead.Spells taken groups) : ArrowHead taken := by
  simp only [arrowLead, spells_append, spells_opt, spells_group, spells_lit, spells_blanks1,
    spells_anyOf, spells_many1, spells_blanks] at h
  obtain ⟨_, _, ⟨_, _, ⟨_, _, ⟨lead, _, hlead, _, _, ⟨_, ⟨⟨keyword, hkeyword, rfl⟩, -⟩, -⟩, rfl, -⟩,
    gap, _, ⟨⟨hne, hgap⟩, -⟩, rfl, -⟩, name, _, ⟨_, ⟨⟨hne', hname⟩, -⟩, -⟩, rfl, -⟩, gap', _,
    ⟨hgap', -⟩, rfl, -⟩ := h
  refine ⟨lead, ?_, keyword, hkeyword, gap, name, gap', hne, hgap, hne', hname, hgap', rfl⟩
  rcases hlead with ⟨_, ⟨_, _, ⟨rfl, -⟩, blank, _, ⟨⟨hblank, hall⟩, -⟩, rfl, -⟩, -⟩ | ⟨rfl, -⟩
  · exact .inr ⟨blank, rfl, hblank, hall⟩
  · exact .inl rfl

/-- `arrowPattern` takes its equals sign and its arrow, and no other equals sign before the
arrow. -/
theorem exists_of_mem_ways_arrow (h : t ∈ ways bound arrowPattern s) :
    ∃ head middle, ArrowHead head ∧ '=' ∉ head ∧ '=' ∉ middle ∧
      s.Reaches t (head ++ '=' :: (middle ++ "=>".toList)) := by
  obtain ⟨_, _, hspells, hgoes⟩ :=
    spells_of_mem_ways ((mem_ways_congr advance_arrowPattern).mp h)
  simp only [spells_append, spells_lit] at hspells
  obtain ⟨head, _, hhead, _, _, ⟨_, _, ⟨rfl, -⟩, _, _, ⟨middle, _, hmiddle, _, _, ⟨rfl, -⟩, rfl, -⟩,
    rfl, -⟩, rfl, -⟩ := hspells
  exact ⟨head, middle, arrowHead_of_spells hhead, not_mem_of_allows rfl (allows_of_spells hhead),
    not_mem_of_allows rfl (allows_of_spells hmiddle), hgoes.reaches⟩

/-- **No match of `arrowPattern` reaches into another.** From a place before a declaration on, it
ends before the declaration, or its equals sign is that of the declaration. -/
theorem stop_le_or_arrowHead {lead : List Char} (h : t ∈ ways bound arrowPattern s)
    (hrest : s.cursor.rest = left ++ (lead ++ '=' :: ' ' :: tail)) (hlead : '=' ∉ lead)
    (hfirst : lead.head? ≠ some '>') :
    t.cursor.position ≤ s.cursor.position + left.length ∨ ArrowHead (left ++ lead) := by
  obtain ⟨head, middle, harrow, hhead, hmiddle, rest, hsplit, hcursor⟩ := exists_of_mem_ways_arrow h
  rw [hrest, append_assoc, cons_append, append_assoc] at hsplit
  by_cases hleft : '=' ∈ left
  · -- the equals sign stands before the declaration, and then the arrow does
    obtain ⟨a, b, rfl, ha⟩ := eq_append_cons_of_mem hleft
    rw [append_assoc, cons_append] at hsplit
    obtain ⟨rfl, hafter⟩ := append_cons_inj_of_not_mem hsplit ha hhead
    by_cases hb : '=' ∈ b
    · obtain ⟨a', b', rfl, ha'⟩ := eq_append_cons_of_mem hb
      rw [append_assoc, cons_append] at hafter
      obtain ⟨rfl, hbehind⟩ := append_cons_inj_of_not_mem hafter ha' hmiddle
      cases b' with
      | nil => cases lead <;> simp_all
      | cons c b' => exact .inl (by simp [hcursor, Cursor.pass])
    · have hnone : '=' ∉ b ++ lead := by simp [hb, hlead]
      have hafter' : b ++ lead ++ '=' :: ' ' :: tail = middle ++ '=' :: '>' :: rest := by
        rw [append_assoc]
        exact hafter
      cases (append_cons_inj_of_not_mem hafter' hnone hmiddle).2
  · rw [← append_assoc] at hsplit
    have hnone : '=' ∉ left ++ lead := by simp [hleft, hlead]
    rw [(append_cons_inj_of_not_mem hsplit hnone hhead).1]
    exact .inr harrow

theorem isBlank_of_mem_keywords :
    ∀ w ∈ ["const", "let", "var"], w.toList ≠ [] ∧ ∀ c ∈ w.toList, isBlank c = false := by
  decide

/-- Read from its end, an `ArrowHead` has the name and the keyword of the declaration, and what
stands before them is nothing or the word `export`. -/
theorem ArrowHead.of_lead {z : List Char} (h : ArrowHead (z ++ d.lead)) :
    (∀ c ∈ d.name.text, isWord c) ∧ (z = [] ∨ IsExport z) := by
  obtain ⟨lead, hlead, keyword, hkeyword, gap, name, gap', hne, hgap, hne', hname, hgap', heq⟩ := h
  obtain ⟨hword, hsolid⟩ := isBlank_of_mem_keywords keyword hkeyword
  have hends : z ++ "const ".toList ++ d.name.text ++ [' '] =
      lead ++ keyword.toList ++ gap ++ name ++ gap' := by
    refine Eq.trans ?_ heq
    show _ = z ++ ("const ".toList ++ d.name.text ++ [' '])
    simp only [append_assoc]
  obtain ⟨hnames, -⟩ := append_inj_last hends d.name.ne_nil hne'
    (fun c hc => isBlank_of_isNameChar (d.name.all c hc))
    (fun c hc => isBlank_of_isWord (hname c hc)) (by decide) hgap'
  have hnames : z ++ "const".toList ++ [' '] ++ d.name.text =
      lead ++ keyword.toList ++ gap ++ name :=
    (congrArg (· ++ d.name.text) (append_assoc z "const".toList [' '])).trans hnames
  obtain ⟨hgaps, hname'⟩ := append_inj_last hnames (cons_ne_nil _ _) hne (by decide)
    (fun c hc => Bool.eq_false_iff.mpr fun hchar =>
      Bool.eq_false_iff.mp (isBlank_of_isNameChar hchar) (hgap c hc))
    d.name.all (fun c hc => by simp [isNameChar, hname c hc])
  obtain ⟨hkeywords, -⟩ := append_inj_last hgaps (by decide) hword (by decide) hsolid (by decide) hgap
  refine ⟨hname' ▸ hname, ?_⟩
  simp only [mem_cons, not_mem_nil, or_false] at hkeyword
  rcases hkeyword with rfl | rfl | rfl
  · obtain rfl := append_cancel_right hkeywords
    exact hlead
  · simpa using congrArg reverse hkeywords
  · simpa using congrArg reverse hkeywords

/-! ## The match of a declaration -/

/-- What stands before the equals sign holds no other sign of a function. -/
theorem notAmong_of_mem_lead (hfront : front = [] ∨ IsExport front) (hc : c ∈ front ++ d.lead) :
    notAmong "=()>" c := by
  have hblank : isBlank c → notAmong "=()>" c := fun h =>
    notAmong_of_accepts h (by decide)
  have hword : ∀ w ∈ ["export", "const ", " "], ∀ e ∈ w.toList, notAmong "=()>" e := by
    decide
  rcases mem_append.mp hc with hc | hc
  · rcases hfront with rfl | ⟨gap, rfl, -, hgap⟩
    · cases hc
    · rcases mem_append.mp hc with hc | hc
      · exact hword "export" (by decide) c hc
      · exact hblank (hgap c hc)
  · have hc : c ∈ "const ".toList ++ d.name.text ++ " ".toList := hc
    rw [mem_append, mem_append] at hc
    rcases hc with (hc | hc) | hc
    · exact hword "const " (by decide) c hc
    · exact notAmong_of_accepts (d.name.all c hc) (by decide)
    · exact hword " " (by decide) c hc

theorem of_mem_names {names : List Name} (hc : c ∈ joinWith [',', ' '] (names.map Run.text)) :
    notAmong "=()>" c := by
  rcases mem_joinWith hc with hc | ⟨piece, hpiece, hc⟩
  · exact (by decide : ∀ e ∈ [',', ' '], notAmong "=()>" e) c hc
  · obtain ⟨n, -, rfl⟩ := mem_map.mp hpiece
    exact notAmong_of_accepts (n.all c hc) (by decide)

theorem failsAt_async {name : Name} (h : name.text ≠ "async".toList) (rest : List Char) :
    (group 4 (lit "async" ++ blanks1)).FailsAt (name.text ++ ' ' :: rest) := by
  refine FailsAt.group (.lit_word (.of_refuses fun c hc => ?_) ?_ fun hname => absurd hname h) 4
  · exact ⟨isBlank_of_isNameChar (name.all c hc), rfl⟩
  · rintro c ⟨⟩
    decide

theorem leads_blank (h : rest.head?.any isBlank = false) : blanks.Leads bound [' '] rest [] :=
  .many (by decide) h

theorem ArrowParams.head?_isBlank (ps : ArrowParams) (rest : List Char) :
    (ps.text ++ rest).head?.any isBlank = false := by
  cases ps with
  | bare name =>
    rw [text, head?_append_of_ne_nil _ name.ne_nil]
    exact (firm_name name).head
  | list names => rfl

/-- How `arrowPattern` goes through the parameters. -/
theorem ArrowParams.exists_leads (bound : Nat) (ps : ArrowParams) (rest : List Char) :
    ∃ async paren middle, async ++ (paren ++ middle) = ps.text ++ [' '] ∧
      (∀ c ∈ middle, notAmong "=" c) ∧ (opt (group 4 (lit "async" ++ blanks1))).Leads bound async
        (paren ++ (middle ++ ([] ++ ([] ++ ("=>".toList ++ rest)))))
        (if ps.isAsync then [(4, async)] else []) ∧
      (opt (lit "(")).Leads bound paren (middle ++ ([] ++ ([] ++ ("=>".toList ++ rest)))) [] := by
  -- nothing stands between the parameters and the arrow but the space
  simp only [nil_append]
  cases ps with
  | bare name =>
    by_cases hasync : name.text = "async".toList
    · refine ⟨"async".toList ++ [' '], [], [], ?_, by simp, ?_, .opt_nil (.of_refuses ⟨rfl, rfl⟩)⟩
      · rw [text, hasync]
        rfl
      · have hif : (bare name).isAsync := beq_iff_eq.mpr hasync
        rw [hif]
        exact (((Leads.lit "async" _).append (Leads.space rfl)).group 4).opt
    · have hif : (bare name).isAsync = false := beq_eq_false_iff_ne.mpr hasync
      have htext : name.text ++ [' '] ++ ("=>".toList ++ rest) =
          name.text ++ ' ' :: ("=>".toList ++ rest) := append_assoc ..
      refine ⟨[], [], name.text ++ [' '], rfl, fun c hc => ?_, ?_, ?_⟩
      · rcases mem_append.mp hc with hc | hc
        · exact notAmong_of_accepts (name.all c hc) (by decide)
        · exact (by decide : ∀ e ∈ [' '], notAmong "=" e) c hc
      · rw [hif, htext]
        exact .opt_nil (failsAt_async hasync _)
      · rw [htext]
        obtain ⟨c, more, hname⟩ := exists_cons_of_ne_nil name.ne_nil
        refine .opt_nil (.of_refuses ⟨?_, rfl⟩)
        rw [hname]
        show (c == '(') = false
        rw [beq_eq_false_iff_ne]
        rintro rfl
        exact absurd (name.all '(' (by simp [hname])) (by decide)
  | list names =>
    refine ⟨[], "(".toList, joinWith [',', ' '] (names.map Run.text) ++ ") ".toList, ?_,
      fun c hc => ?_, .opt_nil (.of_refuses ⟨rfl, rfl⟩), (Leads.lit "(" _).opt⟩
    · simp [text]
    · rcases mem_append.mp hc with hc | hc
      · exact notAmong_of_accepts (of_mem_names hc) (by decide)
      · exact (by decide : ∀ e ∈ ") ".toList, notAmong "=" e) c hc

theorem leads_export (hfront : front = [] ∨ IsExport front) (rest : List Char) :
    (opt (group 1 (lit "export" ++ blanks1))).Leads bound front ("const".toList ++ rest)
      (if front.isEmpty then [] else [(1, front)]) := by
  rcases hfront with rfl | ⟨gap, rfl, hne, hgap⟩
  · exact .opt_nil (.of_refuses ⟨rfl, rfl⟩)
  · exact (((Leads.lit "export" _).append (.many1 hne hgap rfl)).group 1).opt

variable (d : ArrowText)

/-- **`arrowPattern` matches a declaration up to its arrow**, with the word `export` before it. -/
theorem ArrowText.exists_match (hname : ∀ c ∈ d.name.text, isWord c)
    (hfront : front = [] ∨ IsExport front) (bound : Nat) {c : Cursor}
    (hrest : c.rest = front ++ d.start ++ rest) :
    ∃ m, matchAt? arrowPattern bound false c = some m ∧ m.start = c.position ∧
      m.stop = c.position + (front ++ d.start).length ∧ m.source = c.rest ∧
      m.group 3 = d.name.text ∧ (m.group? 4).isSome = d.params.isAsync ∧
      (m.group? 1).isSome = !front.isEmpty := by
  obtain ⟨async, paren, middle, htext, hmiddle, hasync, hparen⟩ := d.params.exists_leads bound rest
  have hparams : ∀ more, async ++ (paren ++ (middle ++ more)) =
      d.params.text ++ ([' '] ++ more) := by
    intro more
    rw [← append_assoc paren, ← append_assoc async, htext, append_assoc]
  have hsolid : (async ++ (paren ++ (middle ++ ([] ++ ([] ++ ("=>".toList ++ rest)))))).head?.any
      isBlank = false := by
    rw [hparams]
    exact d.params.head?_isBlank _
  have hword : ∀ rest, (d.name.text ++ rest).head?.any isBlank = false :=
    IsOneWord.head?_isBlank (.of_isWord d.name.ne_nil hname)
  have hkeyword : ∀ rest, (group 2 (anyOf ["const", "let", "var"])).Leads bound "const".toList rest
      [(2, "const".toList)] := fun rest => (Leads.anyOf rfl (by decide) rest).group 2
  have hleads : arrowPattern.Leads bound (front ++ "const".toList ++ [' '] ++ d.name.text ++ [' '] ++
      "=".toList ++ [' '] ++ async ++ paren ++ middle ++ [] ++ [] ++ "=>".toList) rest _ :=
    ((((((((((((leads_export hfront _).append (hkeyword _)).append (.space (hword _))).append
      ((Leads.many1 d.name.ne_nil hname rfl).group 3)).append (leads_blank rfl)).append
      (.lit "=" _)).append (leads_blank hsolid)).append hasync).append hparen).append
      ((Leads.many hmiddle rfl).group 5)).append
      (.opt_nil (.of_refuses ⟨rfl, rfl⟩))).append (.many (by simp) rfl)).append (.lit "=>" rest)
  have hall : front ++ "const".toList ++ [' '] ++ d.name.text ++ [' '] ++ "=".toList ++ [' '] ++
      async ++ paren ++ middle ++ [] ++ [] ++ "=>".toList = front ++ d.start := by
    show _ = front ++ ("const".toList ++ [' '] ++ d.name.text ++ [' '] ++
      ("=".toList ++ [' '] ++ (d.params.text ++ ([' '] ++ "=>".toList))))
    simp only [append_assoc, nil_append, hparams]
  rw [hall] at hleads
  obtain ⟨m, hmatch, hstart, hstop, hsource, hgroups⟩ := hleads.matchAt? hrest
  refine ⟨m, hmatch, hstart, hstop, hsource, ?_, ?_, ?_⟩
  · rw [Match.group, hgroups]
    cases d.params.isAsync <;> rfl
  · rw [hgroups]
    cases d.params.isAsync <;> cases front.isEmpty <;> rfl
  · rw [hgroups]
    cases d.params.isAsync <;> cases front.isEmpty <;> rfl

/-! ## The search for parameters -/

theorem arrowParamsPattern_refuses {c : Char} (hc : c ≠ '(') :
    arrowParamsPattern.Refuses (some c) :=
  .append_left (.append_left (.append_left (.append_left (.append_left
    ⟨beq_eq_false_iff_ne.mpr hc, rfl⟩))))

/-- `foundParams` passes over a text without a parenthesis. -/
theorem foundParams_append (h : '(' ∉ front) (rest : List Char) :
    foundParams (front ++ rest) = foundParams rest := by
  rcases eq_nil_or_concat front with rfl | ⟨front, x, rfl⟩
  · rfl
  · rw [concat_eq_append] at h ⊢
    have hover : PassesOver arrowParamsPattern (front ++ [x]) rest :=
      passesOver_of_refuses (fun c hc => arrowParamsPattern_refuses (ne_of_mem_of_not_mem hc h)) rest
    rw [foundParams, foundParams, find?_eq_head?, find?_eq_head?,
      findAll_append hover (blind_of_edgeless rfl), head?_map, Option.map_map]
    simp only [Function.comp_def, Match.group_move]

theorem foundParams_nil : foundParams [] = [] := rfl

/-- `foundParams` finds parameters in parentheses before an arrow. -/
theorem foundParams_list (names : List Name) (rest : List Char) :
    foundParams ((ArrowParams.list names).text ++ " =>".toList ++ rest) = reported names := by
  obtain ⟨inner, hinner⟩ : ∃ inner, inner = joinWith [',', ' '] (names.map Run.text) := ⟨_, rfl⟩
  have hsolid : ∀ more, (inner ++ (")".toList ++ more)).head?.any isBlank = false := by
    intro more
    have hfirm : Firm isBlank inner := hinner ▸ .joinWith fun piece hpiece => by
      obtain ⟨n, -, rfl⟩ := mem_map.mp hpiece
      exact ⟨n.ne_nil, firm_name n⟩
    cases inner with
    | nil => rfl
    | cons c inner => exact hfirm.head
  have hclass : ∀ c ∈ inner, notAmong ")" c := fun c hc =>
    notAmong_of_accepts (of_mem_names (hinner ▸ hc)) (by decide)
  have hleads : ∀ bound, arrowParamsPattern.Leads bound
      ("(".toList ++ [] ++ inner ++ ")".toList ++ [' '] ++ "=>".toList) rest _ := fun _ =>
    (((((Leads.lit "(" _).append (.many (by simp) (hsolid _))).append
      ((Leads.many hclass rfl).group 1)).append (.lit ")" _)).append (leads_blank rfl)).append
      (.lit "=>" rest)
  have htext : (ArrowParams.list names).text ++ " =>".toList ++ rest =
      "(".toList ++ [] ++ inner ++ ")".toList ++ [' '] ++ "=>".toList ++ rest := by
    simp [ArrowParams.text, hinner]
  generalize (ArrowParams.list names).text ++ " =>".toList ++ rest = text at htext ⊢
  obtain ⟨m, hmatch, -, -, -, hgroups⟩ := (hleads text.length).matchAt? (c := .start text) htext
  have hfind : arrowParamsPattern.find? text = some m := firstFrom?_of_some hmatch
  have hgroup : m.group 1 = inner := congrArg (Option.getD · []) (hgroups 1)
  rw [foundParams, hfind, Option.map_some, Option.getD_some, hgroup, hinner, paramList_names]

/-- What `arrowParamsPattern` remembers is shorter than the text by four characters. -/
theorem exists_of_mem_ways_arrowParams (h : t ∈ ways bound arrowParamsPattern s) :
    ∃ inner, t.group? 1 = some inner ∧ inner.length + 4 ≤ s.cursor.rest.length := by
  obtain ⟨_, _, hspells, ⟨more, hmore, -⟩, hgroups⟩ := spells_of_mem_ways h
  simp [arrowParamsPattern] at hspells
  obtain ⟨gap, inner, gap', ⟨-, -, rfl⟩, rfl⟩ := hspells
  refine ⟨inner, hgroups 1, ?_⟩
  rw [hmore]
  simp
  omega

theorem foundParams_of_length_le {text : List Char} (h : text.length ≤ 4) :
    foundParams text = [] := by
  cases hfind : arrowParamsPattern.find? text with
  | none =>
    rw [foundParams, hfind]
    rfl
  | some m =>
    obtain ⟨passed, rest, hsplit, hhere, -⟩ := find?_eq_some_iff.mp hfind
    obtain ⟨t, ht, rfl⟩ := exists_way_of_matchAt? hhere
    obtain ⟨inner, hgroup, hlength⟩ := exists_of_mem_ways_arrowParams ht
    have hlength : inner.length + 4 ≤ rest.length := hlength
    have htext : text.length = passed.length + rest.length := by
      rw [← length_append, ← hsplit]
      rfl
    obtain rfl : inner = [] := length_eq_zero_iff.mp (by omega)
    rw [foundParams, hfind, Option.map_some, Option.getD_some, Match.group_ofWay, hgroup]
    rfl

theorem docBefore?_append (front rest : List Char) :
    docBefore? (front ++ rest) front.length = docBefore? front front.length := by
  simp only [docBefore?, slice_eq_window, window, take_left, take_length]

theorem ArrowText.foundParams_nearby (hfront : front = [] ∨ IsExport front) (rest : List Char) :
    foundParams ((front ++ d.text ++ '\n' :: rest).take ((front ++ d.start).length + 200)) =
      d.reportedParams rest := by
  have hlead : '(' ∉ front ++ d.lead ++ "= ".toList := by
    intro hc
    rcases mem_append.mp hc with hc | hc
    · exact absurd (notAmong_of_mem_lead hfront hc) (by decide)
    · exact absurd hc (by decide)
  have htext : front ++ d.text ++ '\n' :: rest =
      front ++ d.start ++ ((' ' :: (d.body ++ ";\n".toList)) ++ rest) := by
    show front ++ (d.start ++ ' ' :: (d.body ++ [';'])) ++ '\n' :: rest = _
    simp
  have hstart : front ++ d.start =
      front ++ d.lead ++ "= ".toList ++ (d.params.text ++ " =>".toList) := by
    show front ++ (d.lead ++ '=' :: ' ' :: (d.params.text ++ " =>".toList)) = _
    simp
  rw [htext, take_length_add_append]
  -- a bare parameter leaves no bracket in reach, so the window behind decides
  cases hparams : d.params with
  | list names =>
    rw [hstart, append_assoc, foundParams_append hlead, hparams, foundParams_list,
      reportedParams, hparams]
  | bare name =>
    have hwindow : (' ' :: (d.body ++ ";\n".toList)).length = d.body.length + 3 := by simp
    have hnone : '(' ∉ front ++ d.start ++ (' ' :: (d.body ++ ";\n".toList)).take 200 := by
      intro hc
      rcases mem_append.mp hc with hc | hc
      · rw [hstart, hparams] at hc
        rcases mem_append.mp hc with hc | hc
        · exact hlead hc
        · rcases mem_append.mp hc with hc | hc
          · exact absurd (name.all '(' hc) (by decide)
          · exact absurd hc (by decide)
      · have hc : '(' ∈ ' ' :: (d.body ++ ";\n".toList) := mem_of_mem_take hc
        rw [mem_cons, mem_append] at hc
        rcases hc with hc | hc | hc
        · exact absurd hc (by decide)
        · exact absurd (d.plain '(' hc) (by decide)
        · exact absurd hc (by decide)
    rw [take_append, ← append_assoc, foundParams_append hnone, hwindow, reportedParams,
      hparams, Nat.add_comm, Nat.sub_add_eq]

/-! ## The entry of a declaration -/

/-- A function that begins before a declaration, or with it, ends before it or has its equals
sign. -/
theorem ArrowText.ends_before (hbefore : before = [] ∨ IsExport before)
    (h : t ∈ ways bound arrowPattern s)
    (hrest : s.cursor.rest = left ++ (before ++ d.start ++ rest)) :
    s.cursor.position < t.cursor.position ∧ (t.cursor.position ≤ s.cursor.position + left.length ∨
        ArrowHead (left ++ before ++ d.lead)) := by
  constructor
  · obtain ⟨taken, ⟨more, -, hcursor⟩, hallows⟩ := reaches_of_mem_ways h
    have hpositive := length_pos_iff.mpr (ne_nil_of_allows rfl hallows)
    rw [hcursor]
    exact Nat.lt_add_of_pos_right hpositive
  · have hsplit : s.cursor.rest =
        left ++ (before ++ d.lead ++ '=' :: ' ' :: (d.params.text ++ " =>".toList ++ rest)) := by
      rw [hrest]
      show left ++ (before ++ (d.lead ++ '=' :: ' ' :: (d.params.text ++ " =>".toList)) ++ rest) = _
      simp
    rw [append_assoc]
    refine stop_le_or_arrowHead h hsplit (fun hc => ?_) fun hc => ?_
    · exact absurd (notAmong_of_mem_lead hbefore hc) (by decide)
    · exact absurd (notAmong_of_mem_lead hbefore (mem_of_mem_head? hc)) (by decide)

/-- `findAll` comes to a declaration if no function before it takes its equals sign. -/
theorem ArrowText.exists_findAll (hbefore : before = [] ∨ IsExport before)
    (h : ∀ left, left <:+ front → left ≠ [] → ¬ ArrowHead (left ++ before ++ d.lead))
    (hcode : code = front ++ (before ++ d.start ++ rest)) :
    ∃ found, arrowPattern.findAll code = found ++ arrowPattern.searchFrom code.length
        ((Cursor.start code).pass front (before ++ d.start ++ rest)) ∧
      ∀ m ∈ found, m.stop ≤ front.length := by
  have hstop := @exists_searchFrom_append arrowPattern code.length (.start code) front
    (before ++ d.start ++ rest) hcode fun passed left m hsplit hne hmatch => ?_
  · simpa [Cursor.start, findAll_eq_searchFrom] using hstop
  · obtain ⟨t, ht, rfl⟩ := exists_way_of_matchAt? hmatch
    obtain ⟨hlow, hhigh⟩ := d.ends_before hbefore ht rfl
    refine ⟨hlow, (hhigh.resolve_right (h left ⟨passed, hsplit.symm⟩ hne)).trans ?_⟩
    simp [Cursor.pass, hsplit, Nat.add_assoc]

theorem find?_around {found : List Match} (h : ∀ m ∈ found, m.stop ≤ position) :
    found.find? (around position) = none := by
  rw [find?_eq_none]
  intro m hm
  have hstop := h m hm
  simp [around]
  omega

/-- The entry of a declaration whose name has only word characters. -/
theorem ArrowText.arrowEntryAt?_eq (hname : ∀ c ∈ d.name.text, isWord c)
    (hbefore : before = [] ∨ IsExport before)
    (h : ∀ left, left <:+ front → left ≠ [] → ¬ IsExport (left ++ before)) (rest : List Char) :
    arrowEntryAt? (front ++ (before ++ d.text ++ '\n' :: rest)) (front ++ before).length =
      some ⟨String.ofList d.name.text, d.reportedParams rest, d.params.isAsync, !before.isEmpty, true,
        docBefore? front front.length⟩ := by
  have hnearby := d.foundParams_nearby hbefore rest
  have hsplit : before ++ d.text ++ '\n' :: rest =
      before ++ d.start ++ (' ' :: (d.body ++ [';']) ++ '\n' :: rest) := by
    show before ++ (d.start ++ ' ' :: (d.body ++ [';'])) ++ '\n' :: rest = _
    simp only [append_assoc]
  generalize before ++ d.text ++ '\n' :: rest = code at hnearby hsplit ⊢
  obtain ⟨found, hfound, hstops⟩ := d.exists_findAll hbefore (fun left hleft hne hhead =>
    (hhead.of_lead.2).elim (fun hnil => hne (append_eq_nil_iff.mp hnil).1) (h left hleft hne))
    (congrArg (front ++ ·) hsplit)
  obtain ⟨m, hmatch, hstart, hstop, hsource, hthree, hfour, hone⟩ :=
    d.exists_match hname hbefore (front ++ code).length (c := (Cursor.start (front ++ code)).pass front
      (before ++ d.start ++ (' ' :: (d.body ++ [';']) ++ '\n' :: rest))) rfl
  have hstart : m.start = front.length := hstart.trans (Nat.zero_add _)
  have hstop' : m.stop = front.length + (before ++ d.start).length := by
    rw [hstop]
    exact congrArg (· + _) (Nat.zero_add _)
  have hne : before ++ d.start ≠ [] := by
    show before ++ (d.lead ++ '=' :: ' ' :: (d.params.text ++ " =>".toList)) ≠ []
    simp
  have haround : around (front ++ before).length m := by
    have hlonger : before.length < (before ++ d.start).length := by
      show _ < (before ++ (d.lead ++ '=' :: ' ' :: (d.params.text ++ " =>".toList))).length
      simp only [length_append, length_cons]
      omega
    rw [around, hstart, hstop', length_append]
    simp only [Bool.and_eq_true, decide_eq_true_eq]
    omega
  have hwindow : m.stop + 200 - m.start = (before ++ d.start).length + 200 := by omega
  rw [arrowEntryAt?, hfound, find?_append, find?_around fun m hm => (hstops m hm).trans (by simp),
    Option.none_or, searchFrom_of_some rfl hne hmatch hstop, find?_cons_of_pos haround,
    Option.map_some, arrowEntry, hthree, hfour, hone, hwindow, hsource.trans hsplit.symm, hnearby,
    hstart, docBefore?_append]

/-- A declaration whose name has other characters has no entry. -/
theorem ArrowText.arrowEntryAt?_eq_none (hname : ¬ ∀ c ∈ d.name.text, isWord c)
    (front rest : List Char) :
    arrowEntryAt? (front ++ (d.text ++ '\n' :: rest)) front.length = none := by
  have hhead : ∀ left : List Char, ¬ ArrowHead (left ++ [] ++ d.lead) := fun left h =>
    hname h.of_lead.1
  have hsplit : front ++ (d.text ++ '\n' :: rest) =
      front ++ ([] ++ d.start ++ (' ' :: (d.body ++ [';']) ++ '\n' :: rest)) := by
    show front ++ (d.start ++ ' ' :: (d.body ++ [';']) ++ '\n' :: rest) = _
    simp only [append_assoc, nil_append]
  obtain ⟨found, hfound, hstops⟩ := d.exists_findAll (.inl rfl) (fun left _ _ => hhead left) hsplit
  rw [arrowEntryAt?, hfound, find?_append, find?_around hstops, Option.none_or,
    Option.map_eq_none_iff, find?_eq_none]
  intro m hm haround
  obtain ⟨passed, more, hrest, t, ht, rfl⟩ := exists_way_of_mem_findFrom hm
  -- a function found from here on begins here, and then it takes the equals sign
  obtain ⟨hfrom, hto⟩ : front.length + passed.length ≤ front.length ∧
      front.length < t.cursor.position := by
    simpa [around, Match.ofWay, Cursor.pass, Cursor.start] using haround
  obtain rfl : passed = [] := length_eq_zero_iff.mp (by omega)
  have hhere : more = [] ++ ([] ++ d.start ++ (' ' :: (d.body ++ [';']) ++ '\n' :: rest)) :=
    hrest.symm
  rcases (d.ends_before (.inl rfl) ht hhere).2 with hstop | harrow
  · have hstop : t.cursor.position ≤ front.length := by simpa [Cursor.pass, Cursor.start] using hstop
    omega
  · exact hhead [] harrow

/-- No text before the word `export` gives the word again. -/
theorem IsExport.eq_nil (h : IsExport before) (h' : IsExport (left ++ before)) : left = [] := by
  obtain ⟨gap, rfl, -, hgap⟩ := h
  obtain ⟨gap', heq, -, hgap'⟩ := h'
  have hends : left ++ "export".toList ++ gap = [] ++ "export".toList ++ gap' :=
    (append_assoc ..).trans heq
  have hwords := (append_inj_last hends (by decide) (by decide) (by decide) (by decide) hgap hgap').1
  exact append_cancel_right hwords

/-- What stands before a declaration, with the word `export` that belongs to it, if there is one. -/
theorem exists_before (front : List Char) : ∃ outer before, front = outer ++ before ∧
    (before = [] ∨ IsExport before) ∧
    ∀ left, left <:+ outer → left ≠ [] → ¬ IsExport (left ++ before) := by
  by_cases hexport : ∃ outer before, front = outer ++ before ∧ IsExport before
  · obtain ⟨outer, before, rfl, hbefore⟩ := hexport
    exact ⟨outer, before, rfl, .inr hbefore, fun left _ hne hagain => hne (hbefore.eq_nil hagain)⟩
  · refine ⟨front, [], (append_nil _).symm, .inl rfl, ?_⟩
    rintro left ⟨outer, rfl⟩ - hleft
    exact hexport ⟨outer, left, rfl, by rwa [append_nil] at hleft⟩

theorem forall_isWord_iff (name : Name) : (∀ c ∈ name.text, isWord c) ↔ '$' ∉ name.text := by
  constructor
  · intro h hc
    exact absurd (h '$' hc) (by decide)
  · intro h c hc
    have hchar := name.all c hc
    rw [isNameChar, Bool.or_eq_true, beq_iff_eq] at hchar
    exact hchar.resolve_right fun heq => h (heq ▸ hc)

/-- The entry of a declaration has one place where the text behind the declaration shows. -/
theorem ArrowText.exists_arrowEntryAt?_eq (front : List Char) :
    ∃ exported doc, ∀ rest, arrowEntryAt? (front ++ (d.text ++ '\n' :: rest)) front.length =
      if '$' ∈ d.name.text then none
      else some ⟨String.ofList d.name.text, d.reportedParams rest, d.params.isAsync, exported, true,
        doc⟩ := by
  by_cases hname : '$' ∈ d.name.text
  · refine ⟨false, none, fun rest => ?_⟩
    rw [if_pos hname]
    exact d.arrowEntryAt?_eq_none (fun hwords => (forall_isWord_iff d.name).mp hwords hname) front rest
  · obtain ⟨outer, before, rfl, hbefore, hlast⟩ := exists_before front
    refine ⟨!before.isEmpty, docBefore? outer outer.length, fun rest => ?_⟩
    rw [if_neg hname, append_assoc outer, ← append_assoc before]
    exact d.arrowEntryAt?_eq ((forall_isWord_iff d.name).mpr hname) hbefore hlast rest

/-- `reportedParams` are the same whatever stands behind the declaration exactly if they stand in
parentheses or the body fills all of the text that is searched. -/
theorem ArrowText.reportedParams_const_iff :
    (∀ rest rest', d.reportedParams rest = d.reportedParams rest') ↔
      d.params.isList ∨ 193 ≤ d.body.length := by
  cases hparams : d.params with
  | list names => simp [reportedParams, hparams, ArrowParams.isList]
  | bare name =>
    simp only [reportedParams, hparams, ArrowParams.isList, Bool.false_eq_true, false_or]
    constructor
    · intro hsame
      by_contra hshort
      have hlength : "(a)=>".toList.length ≤ 197 - d.body.length := by
        rw [String.length_toList]
        show 5 ≤ _
        omega
      have hfound := hsame "(a)=>".toList []
      rw [take_of_length_le hlength, take_nil] at hfound
      exact absurd hfound (by decide +kernel)
    · intro hlong rest rest'
      have hnone : ∀ rest : List Char, foundParams (rest.take (197 - d.body.length)) = [] :=
        fun rest => foundParams_of_length_le ((length_take_le ..).trans (by omega))
      rw [hnone, hnone]

/-- `reportedParams` are those of the declaration exactly if they stand in parentheses. -/
theorem ArrowText.reportedParams_eq_iff :
    (∀ rest, d.reportedParams rest = reported d.params.names) ↔ d.params.isList := by
  cases hparams : d.params with
  | list names => simp [reportedParams, hparams, ArrowParams.isList, ArrowParams.names]
  | bare name =>
    simp only [reportedParams, hparams, ArrowParams.isList, Bool.false_eq_true, iff_false]
    intro hsame
    have hfound := hsame []
    rw [take_nil, foundParams_nil] at hfound
    cases hfound

/-- **What the entry of a declaration depends on.** The text behind a declaration shows in its entry
in the parameters alone, and not at all exactly if there is no entry, if the parameters stand in
parentheses or if the body is long. An entry with the parameters of the declaration is reported
whatever follows exactly if these stand in parentheses and the name has only word characters. -/
theorem arrowEntryAt?_declaration (front : List Char) (d : ArrowText) :
    (∃ exported doc, ∀ rest, arrowEntryAt? (front ++ (d.text ++ '\n' :: rest)) front.length =
      if '$' ∈ d.name.text then none
      else some ⟨String.ofList d.name.text, d.reportedParams rest, d.params.isAsync, exported, true,
        doc⟩) ∧
    ((∀ rest rest', arrowEntryAt? (front ++ (d.text ++ '\n' :: rest)) front.length =
        arrowEntryAt? (front ++ (d.text ++ '\n' :: rest')) front.length) ↔
      '$' ∈ d.name.text ∨ d.params.isList = true ∨ 193 ≤ d.body.length) ∧
    ((∀ rest, ∃ entry ∈ functions (front ++ (d.text ++ '\n' :: rest)),
        arrowEntryAt? (front ++ (d.text ++ '\n' :: rest)) front.length = some entry ∧
          entry.name = String.ofList d.name.text ∧ entry.params = reported d.params.names) ↔
      '$' ∉ d.name.text ∧ d.params.isList = true) := by
  obtain ⟨exported, doc, hentry⟩ := d.exists_arrowEntryAt?_eq front
  refine ⟨⟨exported, doc, hentry⟩, ?_, ?_⟩
  · simp only [hentry]
    by_cases hname : '$' ∈ d.name.text
    · simp [hname]
    · simp [hname, ← d.reportedParams_const_iff]
  · by_cases hname : '$' ∈ d.name.text
    · simp [hentry, hname]
    · rw [← d.reportedParams_eq_iff]
      constructor
      · intro hall
        refine ⟨hname, fun rest => ?_⟩
        obtain ⟨entry, -, hsome, -, hparams⟩ := hall rest
        rw [hentry, if_neg hname] at hsome
        obtain rfl := Option.some.inj hsome
        exact hparams
      · rintro ⟨-, hsame⟩ rest
        have hsome := (hentry rest).trans (if_neg hname)
        exact ⟨_, mem_functions_of_arrowEntryAt? hsome, hsome, rfl, hsame rest⟩

/-- The parameters of the next function, or none, in place of a parameter without parentheses. -/
theorem functions_next_params :
    ((functions "const f = x => 1;\nconst g = (a, b) => 2;".toList).map fun f => (f.name, f.params)) =
        [("f", ["a", "b"]), ("g", ["a", "b"])] ∧
      ((functions "const f = x => 1;\n".toList).map fun f => (f.name, f.params)) = [("f", [])] := by
  decide +kernel

end JavaScript

end CodeAtlas
