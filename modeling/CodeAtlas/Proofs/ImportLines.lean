import CodeAtlas.Proofs.ImportTexts
import Mathlib.Data.List.Chain

/-!
# Imports in lines

A source with one import in each line is searched twice: for imports for their effect, which are
found wherever they stand, and for imports of something, which reach from the word `import` over
everything but a semicolon to the next word `from` with a module after it. So an import for its
effect that is not ended by a semicolon is taken for the start of the next import of something. The
imports are read back always if every line ends with a semicolon, and without semicolons exactly if
no import for its effect stands before an import of something (`imports_read_back`).
-/

open List

namespace CodeAtlas

open Pattern Outline Text

namespace JavaScript

variable {bound : Nat} {rest tail : List Char}
variable {ds : List ImportText}
variable {text : List Char}

/-! ## The patterns -/

/-- `fromPattern` behind the bindings of an import. -/
def fromTail : Pattern :=
  blanks1 ++ (lit "from" ++ (blanks1 ++ quoted 2))

/-- `fromPattern`, read from left to right. -/
def fromParts : Pattern :=
  lit "import" ++ (blanks1 ++ (group 1 (span (notAmong ";") 1 none false) ++ fromTail))

theorem advance_fromPattern (bound : Nat) (next : State → Option State) (s : State) :
    advance bound fromPattern next s = advance bound fromParts next s :=
  rfl

/-- What `fromPattern` takes: the word, the bindings, the word `from` and the rest. -/
theorem spells_fromPattern {taken : List Char} {groups : List (Nat × List Char)}
    (h : fromPattern.Spells taken groups) : ∃ gap what gap' more,
      (gap ≠ [] ∧ ∀ c ∈ gap, isBlank c) ∧ what ≠ [] ∧ (gap' ≠ [] ∧ ∀ c ∈ gap', isBlank c) ∧
      taken = "import".toList ++ (gap ++ (what ++ (gap' ++ ("from".toList ++ more)))) ∧
      groups.lookup 1 = some what := by
  simp [fromPattern, quoted, Spells] at h
  obtain ⟨gap, what, gap', _, ⟨⟨⟨hgap, -, hwhat⟩, hgap'⟩, -⟩, _, _, _, -, rfl, rfl⟩ := h
  exact ⟨gap, what, gap', _, hgap, length_pos_iff.mp hwhat, hgap', rfl, rfl⟩

variable {c : Char} {d : ImportText} {mid : List ImportText}

theorem refuses_sideEffectPattern (h : c ≠ 'i') : sideEffectPattern.Refuses (some c) :=
  .of_heads rfl (forall_mem_singleton.mpr (beq_false_of_ne h))

theorem refuses_fromPattern (h : c ≠ 'i') : fromPattern.Refuses (some c) :=
  .of_heads rfl (forall_mem_singleton.mpr (beq_false_of_ne h))

theorem refuses_quoted (h : notAmong "'\"" c) (index : Nat) : (quoted index).Refuses (some c) :=
  .of_heads rfl (forall_mem_singleton.mpr (by simpa using not_isQuote h))

/-! ## Places without an import -/

/-- A word within quotation marks has no white space after it. -/
theorem passes_inQuotes {word : String} (hword : '\'' ∉ word.toList)
    (hquote : (lit word).Refuses (some '\'')) (q : Pattern) (module : Run isModuleChar)
    (rest : List Char) : Passes (lit word ++ (blanks1 ++ q)) (inQuotes module) rest := by
  have hblank : ∀ c ∈ '\'' :: module.text, (blanks1 ++ q).Refuses (some c) := fun c hc =>
    Refuses.append_left ⟨isBlank_of_mem_inQuotes (mem_append_left _ hc), rfl⟩
  refine .append (.lit_word (.of_refuses hblank) ?_ fun _ => .of_refuses
    (hblank _ mem_cons_self)) (.single hquote.append_left)
  rintro c ⟨⟩
  exact hword

variable (b : Bindings) (module : Run isModuleChar)

theorem passes_sideEffectPattern_inQuotes (rest : List Char) :
    Passes sideEffectPattern (inQuotes module) rest :=
  .assoc (passes_inQuotes (by decide) ⟨by decide, by decide⟩ _ module rest)

theorem passes_sideEffectPattern {front : List Char} (h : ∀ c ∈ front, notAmong "'\"" c)
    (rest : List Char) : Passes sideEffectPattern (front ++ "from".toList) (' ' :: rest) := by
  have hplain : ∀ c ∈ front ++ "from".toList, (quoted 1).Refuses (some c) :=
    forall_mem_append.mpr ⟨fun c hc => refuses_quoted (h c hc) 1,
      fun c hc => refuses_quoted ((by decide : ∀ d ∈ "from".toList, notAmong "'\"" d) c hc) 1⟩
  refine .assoc (.lit_word (.blanks1 (.of_refuses hplain) ?_) ?_ fun ⟨passed, hpassed⟩ => ?_)
  · rw [getLast?_append]
    rfl
  · rintro _ ⟨⟩
    decide
  · have hlast := congrArg getLast? hpassed
    simp at hlast

theorem passes_fromPattern_semicolon (rest : List Char) :
    Passes fromPattern ("import ".toList ++ inQuotes module ++ [';']) rest := by
  have hfrom : ∀ rest, Passes (lit "from" ++ (blanks1 ++ quoted 2)) (inQuotes module) rest :=
    passes_inQuotes (by decide) ⟨by decide, by decide⟩ _ module
  have htail : Passes fromTail (' ' :: inQuotes module) (';' :: rest) := by
    have hspace : Passes (lit "from" ++ (blanks1 ++ quoted 2)) [' '] (inQuotes module ++ ';' :: rest) :=
      .single ⟨by decide, by decide⟩
    refine .blanks1 (hspace.append (hfrom _)) ?_
    show ((' ' :: '\'' :: module.text) ++ ['\'']).getLast?.any isBlank = false
    rw [getLast?_concat]
    decide
  have hend : fromTail.Refuses (some ';') := ⟨by decide, by decide⟩
  have hgroup : Passes (group 1 (span (notAmong ";") 1 none false) ++ fromTail)
      (' ' :: inQuotes module) (';' :: rest) :=
    .within (.group .span 1) htail rfl (.of_refuses hend)
  have hstart : fromParts.FailsAt ("import".toList ++ ((' ' :: inQuotes module) ++ ';' :: rest)) :=
    .lit_append (.within .span hgroup rfl (.of_refuses (Refuses.append rfl hend)))
  have hletters : ∀ c ∈ "mport ".toList, c ≠ 'i' := by decide
  have hword : Passes fromPattern ('i' :: "mport ".toList) (inQuotes module ++ [';'] ++ rest) := by
    rw [append_assoc]
    exact passes_cons_iff.mpr
      ⟨hstart, .of_refuses fun c hc => refuses_fromPattern (hletters c hc)⟩
  have hquotes : Passes fromParts (inQuotes module) ([';'] ++ rest) :=
    passes_inQuotes (by decide) ⟨by decide, by decide⟩ _ module _
  rw [append_assoc]
  exact hword.append ((hquotes.of_advance_eq advance_fromPattern).append
    (.single (refuses_fromPattern (by decide))))

/-! ## Matches -/

theorem leads_quoted (index : Nat) (tail : List Char) :
    (quoted index).Leads bound (inQuotes module) tail [(index, module.text)] := by
  have hplain : ∀ c ∈ module.text, (!isQuote c) := fun c hc =>
    not_isQuote (notAmong_of_accepts (module.all c hc) (by decide))
  exact ((Leads.one rfl _).append ((Leads.many1 module.ne_nil hplain rfl).group index)).append
    (.one rfl tail)

theorem leads_fromTail (tail : List Char) :
    fromTail.Leads bound (" from ".toList ++ inQuotes module) tail [(2, module.text)] :=
  (Leads.space rfl).append ((Leads.lit "from" _).append ((Leads.space rfl).append
    (leads_quoted module 2 tail)))

/-- Within the bindings no word `from` stands before a quotation mark. -/
theorem passes_fromTail (rest : List Char) : Passes fromTail b.text (" from ".toList ++ rest) := by
  have hquoted : ∀ c ∈ b.text, (quoted 2).Refuses (some c) := fun c hc =>
    refuses_quoted (notAmong_of_accepts (b.of_mem_text hc) (by decide)) 2
  refine .blanks1 (.lit_word (.blanks1 (.of_refuses hquoted) b.firm.last) ?_ fun _ => ?_)
    b.firm.last
  · rintro _ ⟨⟩
    decide
  · have hletter : (quoted 2).Refuses (some 'f') := ⟨by decide, by decide⟩
    exact .space rfl (.of_refuses hletter)

/-- **`fromPattern` matches an import as a whole**, with its bindings and its module. -/
theorem leads_binding (tail : List Char) :
    fromPattern.Leads bound (ImportText.binding b module).text tail
      [(2, module.text), (1, b.text)] := by
  have hhead : (b.text ++ (" from ".toList ++ inQuotes module) ++ tail).head?.any isBlank =
      false := by
    rw [append_assoc, head?_append_of_ne_nil _ b.text_ne_nil]
    exact b.firm.head
  have hbindings : ∀ c ∈ b.text, notAmong ";" c := fun c hc =>
    notAmong_of_accepts (b.of_mem_text hc) (by decide)
  have hparts : fromParts.Leads bound _ tail _ :=
    (Leads.lit "import" _).append ((Leads.space hhead).append
      (.group_fewest1 (passes_fromTail b _) (leads_fromTail module tail) b.text_ne_nil hbindings))
  exact .of_advance_eq (advance_fromPattern bound) hparts

/-! ## Lines -/

theorem effect_text_append (tail : List Char) :
    (ImportText.effect module).text ++ tail = "import ".toList ++ (inQuotes module ++ tail) :=
  append_assoc ..

theorem binding_text_append (tail : List Char) :
    (ImportText.binding b module).text ++ tail =
      "import ".toList ++ (b.text ++ (" from ".toList ++ (inQuotes module ++ tail))) := by
  unfold ImportText.text
  simp only [append_assoc]

theorem passes_lineEnd {p : Pattern} (hp : p.Refuses (some ';')) (semicolon : Bool) :
    Passes p (if semicolon then [';'] else []) tail := by
  cases semicolon with
  | false => exact .nil p tail
  | true => exact .single hp

def effectOf (m : Match) : Import :=
  ⟨String.ofList (m.group 1), none, [], none, true, false⟩

/-- The import that a match of `fromPattern` stands for. -/
def bindingOf (m : Match) : Import :=
  importOf (m.group 2) (trim (m.group 1))

/-- **`sideEffectPattern` finds an import in every line** that has one. -/
theorem reads_effect (d : ImportText) (semicolon : Bool) (tail : List Char) :
    Reads sideEffectPattern effectOf (d.line semicolon)
      (if d.isEffect then some d.entry else none).toList tail := by
  have hend : ∀ tail, Passes sideEffectPattern (if semicolon then [';'] else []) tail :=
    fun _ => passes_lineEnd (refuses_sideEffectPattern (by decide)) semicolon
  cases d with
  | effect module =>
    refine (Reads.of_leads (cons_ne_nil _ _) (fun bound => ((Leads.lit "import" _).append
      (.space rfl)).append (leads_quoted module 1 _)) fun m hgroups => ?_).append_passes (hend tail)
    rw [effectOf, Match.group, hgroups]
    rfl
  | binding b module =>
    have hplain : ∀ c ∈ "import ".toList ++ b.text ++ [' '], notAmong "'\"" c := by
      rw [forall_mem_append, forall_mem_append]
      exact ⟨⟨by decide, fun c hc => notAmong_of_accepts (b.of_mem_text hc) (by decide)⟩, by decide⟩
    have hsplit : (ImportText.binding b module).line semicolon =
        ("import ".toList ++ b.text ++ [' '] ++ "from".toList) ++ ([' '] ++ (inQuotes module ++
          if semicolon then [';'] else [])) := by
      rw [ImportText.line, binding_text_append]
      simp only [append_assoc]
      rfl
    rw [hsplit]
    exact .of_passes ((passes_sideEffectPattern hplain _).append
      ((Passes.single (refuses_sideEffectPattern (by decide))).append
        ((passes_sideEffectPattern_inQuotes module _).append (hend tail))))

/-- **`fromPattern` finds an import in every line** that has one. -/
theorem reads_binding (semicolon : Bool) (tail : List Char) :
    Reads fromPattern bindingOf ((ImportText.binding b module).line semicolon)
      [(ImportText.binding b module).entry] tail := by
  refine (Reads.of_leads (cons_ne_nil _ _) (fun bound => leads_binding b module _)
    fun m hgroups => ?_).append_passes
      (passes_lineEnd (refuses_fromPattern (by decide)) semicolon)
  rw [bindingOf, Match.group, Match.group, hgroups, hgroups]
  show importOf module.text (trim b.text) = _
  rw [b.trim_text, b.importOf_text]
  rfl

/-! ## Imports for their effect without a semicolon -/

/-- No white space stands before the letter `f`. -/
def NoFrom (text : List Char) : Prop :=
  List.IsChain (fun b c => isBlank b = true → c ≠ 'f') text

theorem NoFrom.append {text' : List Char} (h : NoFrom text) (h' : NoFrom text')
    (hhead : text'.head? ≠ some 'f') : NoFrom (text ++ text') := by
  refine List.IsChain.append h h' fun b _ c hc _ => ?_
  rintro rfl
  exact hhead hc

theorem NoFrom.failsAt (h : NoFrom text) : fromPattern.FailsAt text := by
  refine .of_ways fun bound s hrest t ht => ?_
  obtain ⟨taken, groups, hspells, ⟨rest, hsplit, -⟩, -⟩ := spells_of_mem_ways ht
  obtain ⟨gap, what, gap', more, -, -, ⟨hne, hblank⟩, rfl, -⟩ := spells_fromPattern hspells
  obtain ⟨front, e, rfl⟩ := (eq_nil_or_concat gap').resolve_left hne
  have htext : text = ("import".toList ++ (gap ++ what) ++ front) ++
      e :: 'f' :: ("rom".toList ++ (more ++ rest)) := by
    rw [← hrest, hsplit]
    simp
  rw [NoFrom, htext] at h
  exact (isChain_append_cons_cons.mp h).2.1 (hblank e (by simp)) rfl

theorem NoFrom.of_isBlank (h : ∀ c ∈ text, isBlank c = false) : NoFrom text := by
  refine Pairwise.isChain (pairwise_of_forall_mem_list fun b hb c _ hblank => ?_)
  rw [h b hb] at hblank
  cases hblank

/-- `fromPattern` needs the word `from` after white space. -/
theorem NoFrom.passes (h : NoFrom (text ++ tail)) : Passes fromPattern text tail := by
  intro left hleft _
  obtain ⟨passed, rfl⟩ := hleft
  rw [append_assoc] at h
  exact NoFrom.failsAt (List.IsChain.suffix h ⟨passed, rfl⟩)

/-- Imports for their effect alone hold no word `from` after white space. -/
theorem noFrom_effects (h : ∀ d ∈ ds, d.isEffect) (ended : Bool) :
    NoFrom (linesText (ds.map (ImportText.line false)) ended) ∧
      (linesText (ds.map (ImportText.line false)) ended).head? ≠ some 'f' := by
  have hfeed : NoFrom ['\n'] := .singleton _
  induction ds with
  | nil =>
    cases ended with
    | false => exact ⟨.nil, by decide⟩
    | true => exact ⟨hfeed, by decide⟩
  | cons d ds ih =>
    obtain ⟨hmore, hhead⟩ := ih fun d hd => h d (mem_cons_of_mem _ hd)
    have hafter : NoFrom (afterLine (ds.map (ImportText.line false)) ended) ∧
        (afterLine (ds.map (ImportText.line false)) ended).head? ≠ some 'f' := by
      rw [afterLine]
      split
      · exact ⟨hmore, hhead⟩
      · exact ⟨hfeed.append hmore hhead, by simp⟩
    cases d with
    | binding b module => exact absurd (h _ mem_cons_self) (by simp [ImportText.isEffect])
    | effect module =>
      have hword : NoFrom "import ".toList := by
        unfold NoFrom
        decide
      have hquotes : NoFrom (inQuotes module) := .of_isBlank fun c => isBlank_of_mem_inQuotes
      rw [map_cons, linesText_cons, ImportText.line_false, effect_text_append]
      refine ⟨hword.append (hquotes.append hafter.1 hafter.2) ?_, ?_⟩
      · exact (by decide : some '\'' ≠ some 'f')
      · exact (by decide : some 'i' ≠ some 'f')

/-- `fromPattern` passes over an import for its effect with others of its kind after it. -/
theorem passes_fromPattern_effects (h : ∀ e ∈ d :: ds, e.isEffect) (ended : Bool) :
    Passes fromPattern (d.line false) (afterLine (ds.map (ImportText.line false)) ended) := by
  have hnone := (noFrom_effects h ended).1
  rw [map_cons, linesText_cons] at hnone
  exact hnone.passes

theorem fits_fromPattern {what : List Char} (hne : what ≠ [])
    (hwhat : ∀ c ∈ what, notAmong ";" c) (module : Run isModuleChar) (rest : List Char) :
    fromPattern.Fits ("import".toList ++ [' '] ++ what ++ [' '] ++ "from".toList ++ [' '] ++
      inQuotes module) rest := by
  have hspace : ∀ rest, blanks1.Fits [' '] rest := fun rest =>
    .many1 (cons_ne_nil _ _) (by decide) rest
  have hgroup : ∀ rest, (group 1 (span (notAmong ";") 1 none false)).Fits what rest := by
    refine fun rest => .group (fun bound s hrest => ?_) 1
    exact ⟨s.pass what rest,
      mem_ways_reluctant.mpr (mem_ways_many1.mpr ⟨what, rest, hne, ⟨hrest, hwhat⟩, rfl⟩), rfl⟩
  exact (((((((Fits.lit "import" _).append (hspace _)).append (hgroup _)).append
    (hspace _)).append (.lit "from" _)).append (hspace _)).append
      (Leads.fits fun _ => leads_quoted module 2 rest))

theorem afterLine_cons (line : List Char) (lines : List (List Char)) (ended : Bool) :
    afterLine (line :: lines) ended = '\n' :: (line ++ afterLine lines ended) := by
  rw [afterLine, linesText_cons]
  rfl

/-- Up to the next import of something, there is no semicolon. -/
theorem exists_afterLine (hmid : ∀ d ∈ mid, d.isEffect) (b : Bindings) (module : Run isModuleChar)
    (back : List ImportText) (ended : Bool) :
    ∃ front rest, afterLine ((mid ++ .binding b module :: back).map (ImportText.line false)) ended =
      front ++ (" from ".toList ++ (inQuotes module ++ rest)) ∧ ∀ c ∈ front, notAmong ";" c := by
  have hword : ∀ c ∈ '\n' :: "import ".toList, notAmong ";" c := by decide
  induction mid with
  | nil =>
    refine ⟨'\n' :: "import ".toList ++ b.text,
      afterLine (back.map (ImportText.line false)) ended, ?_, fun c hc => ?_⟩
    · rw [nil_append, map_cons, afterLine_cons, ImportText.line_false,
        binding_text_append, cons_append, cons_append, append_assoc]
    · rcases mem_append.mp hc with hc | hc
      · exact hword c hc
      · exact notAmong_of_accepts (b.of_mem_text hc) (by decide)
  | cons d mid ih =>
    obtain ⟨front, rest, hfront, hplain⟩ := ih fun d hd => hmid d (mem_cons_of_mem _ hd)
    cases d with
    | binding b module => exact absurd (hmid _ mem_cons_self) (by simp [ImportText.isEffect])
    | effect other =>
      refine ⟨'\n' :: "import ".toList ++ (inQuotes other ++ front), rest, ?_, fun c hc => ?_⟩
      · rw [cons_append, map_cons, afterLine_cons, hfront, ImportText.line_false,
          effect_text_append]
        simp only [cons_append, append_assoc]
      · rw [mem_append, mem_append] at hc
        rcases hc with hc | hc | hc
        · exact hword c hc
        · exact notAmong_of_accepts (notAmong_of_mem_inQuotes hc) (by decide)
        · exact hplain c hc

/-! ## Imports that swallow others -/

/-- For `importOf`, what begins with a quotation mark is a default with the mark in its name. -/
theorem exists_default_importOf (module text : List Char) :
    ∃ name, (importOf module (trim ('\'' :: text))).default = some name ∧ '\'' ∈ name.toList := by
  have hquote : ∀ text, ∃ more, trim ('\'' :: text) = '\'' :: more :=
    fun text => ⟨_, trim_cons (by decide) text⟩
  obtain ⟨more, hmore⟩ := hquote text
  have hbrace : beginsWith ['\x7b'] ('\'' :: more) = false := rfl
  have hstar : beginsWith "* as".toList ('\'' :: more) = false := rfl
  rw [hmore, importOf, hbrace, hstar]
  by_cases hcomma : ('\'' :: more).contains ','
  · obtain ⟨name, hname⟩ := hquote (more.takeWhile (· != ','))
    have htake : ('\'' :: more).takeWhile (· != ',') = '\'' :: more.takeWhile (· != ',') := rfl
    rw [hcomma, htake, hname]
    exact ⟨_, rfl, by simp⟩
  · rw [Bool.eq_false_iff.mpr hcomma]
    exact ⟨_, rfl, by simp⟩

/-- **An import for its effect swallows what follows it** up to the next import of something. What
is found has a quotation mark in its name. -/
theorem exists_swallowed (hmid : ∀ d ∈ mid, d.isEffect) (effect : Run isModuleChar) (b : Bindings)
    (module : Run isModuleChar) (back : List ImportText) (ended : Bool) (bound : Nat) {c : Cursor}
    (hrest : c.rest = linesText ((.effect effect :: (mid ++ .binding b module :: back)).map
      (ImportText.line false)) ended) : ∃ i ∈ (fromPattern.searchFrom bound c).map bindingOf,
      ∃ name, i.default = some name ∧ '\'' ∈ name.toList := by
  obtain ⟨front, rest, hfront, hplain⟩ := exists_afterLine hmid b module back ended
  rw [map_cons, linesText_cons, hfront, ImportText.line_false, effect_text_append] at hrest
  have hwhat : ∀ c ∈ inQuotes effect ++ front, notAmong ";" c := by
    intro c hc
    rcases mem_append.mp hc with hc | hc
    · exact notAmong_of_accepts (notAmong_of_mem_inQuotes hc) (by decide)
    · exact hplain c hc
  have hne : inQuotes effect ++ front ≠ [] := by simp [inQuotes]
  have hfits := fits_fromPattern hne hwhat module rest
  have hsplit : c.rest = ("import".toList ++ [' '] ++ (inQuotes effect ++ front) ++ [' '] ++
      "from".toList ++ [' '] ++ inQuotes module) ++ rest := by
    rw [hrest]
    simp only [append_assoc]
    rfl
  obtain ⟨t, ht, hmatch⟩ := hfits.matchAt? bound hsplit
  obtain ⟨taken, groups, hspells, ⟨after, htaken, hcursor⟩, hgroups⟩ := spells_of_mem_ways ht
  obtain ⟨gap, what, gap', more, ⟨hgap, hblank⟩, hwhat, -, rfl, hgroup⟩ := spells_fromPattern hspells
  have hstop : (Match.ofWay c t).stop = _ := congrArg Cursor.position hcursor
  refine ⟨bindingOf (.ofWay c t), ?_, ?_⟩
  · rw [searchFrom_of_some htaken (by simp) hmatch hstop]
    exact mem_cons_self
  -- the bindings begin right after the one space, with the quotation mark
  obtain ⟨d, gap, rfl⟩ := exists_cons_of_ne_nil hgap
  obtain ⟨q, what, rfl⟩ := exists_cons_of_ne_nil hwhat
  obtain ⟨tail, htail⟩ : ∃ tail, c.rest = "import".toList ++ ' ' :: '\'' :: tail := ⟨_, hrest⟩
  have heq : "import".toList ++ ' ' :: '\'' :: tail =
      "import".toList ++ d :: (gap ++ q :: (what ++ (gap' ++ ("from".toList ++ more)) ++ after)) := by
    refine htail.symm.trans (htaken.trans ?_)
    simp
  have hafter := (cons.inj (append_cancel_left heq)).2
  cases gap with
  | nil =>
    obtain rfl : '\'' = q := (cons.inj hafter).1
    rw [bindingOf, Match.group_ofWay _ _ 1, hgroups, hgroup]
    exact exists_default_importOf _ what
  | cons e gap =>
    have he := hblank e (by simp)
    rw [← (cons.inj hafter).1] at he
    exact absurd he (by decide)

/-! ## Reading back -/

theorem requirePattern_findAll (h : '=' ∉ text) : requirePattern.findAll text = [] := by
  have hpasses : Passes requirePattern text [] := by
    intro left hleft _
    rw [append_nil]
    have hleft : '=' ∉ left := fun hmem => h (hleft.subset hmem)
    exact (((((FailsAt.of_not_mem (by decide) hleft).append _).append _).append _).append _)
  rw [findAll_eq_searchFrom]
  exact hpasses.searchFrom_eq_nil ⟨by decide, by decide⟩ rfl

theorem imports_eq (text : List Char) : imports text =
    (sideEffectPattern.findAll text).map effectOf ++ (fromPattern.findAll text).map bindingOf ++
      (requirePattern.findAll text).map fun m =>
        ⟨String.ofList (m.group 2), some (String.ofList (m.group 1)), [], none, false, true⟩ := by
  rw [imports, collect, map_map]
  rfl

theorem ne_equals_of_mem_line (semicolon : Bool) (d : ImportText) :
    ∀ c ∈ d.line semicolon, c ≠ '=' := by
  have hquotes : ∀ module, ∀ c ∈ inQuotes module, c ≠ '=' := by
    rintro module _ hc rfl
    exact absurd (notAmong_of_mem_inQuotes hc) (by decide)
  refine forall_mem_append.mpr ⟨?_, by cases semicolon <;> decide⟩
  cases d with
  | effect module => exact forall_mem_append.mpr ⟨by decide, hquotes module⟩
  | binding b module =>
    have hbindings : ∀ c ∈ b.text, c ≠ '=' := by
      rintro _ hc rfl
      exact absurd (b.of_mem_text hc) (by decide)
    exact forall_mem_append.mpr ⟨by decide, forall_mem_append.mpr ⟨hbindings,
      forall_mem_append.mpr ⟨by decide, hquotes module⟩⟩⟩

theorem equals_not_mem_lines (semicolon : Bool) (ds : List ImportText) (ended : Bool) :
    '=' ∉ linesText (ds.map (ImportText.line semicolon)) ended := by
  intro hmem
  rcases mem_append.mp hmem with hmem | hmem
  · rcases mem_joinWith hmem with hmem | ⟨line, hline, hc⟩
    · simp at hmem
    · obtain ⟨d, -, rfl⟩ := mem_map.mp hline
      exact ne_equals_of_mem_line semicolon d _ hc rfl
  · cases ended <;> simp at hmem

/-- The `imports` of lines: those for their effect are always read back. -/
theorem imports_lines (semicolon : Bool) (ds : List ImportText) (ended : Bool) :
    imports (linesText (ds.map (ImportText.line semicolon)) ended) =
      (ds.filter ImportText.isEffect).map ImportText.entry ++
        (fromPattern.findAll (linesText (ds.map (ImportText.line semicolon)) ended)).map
          bindingOf := by
  have heffects : (sideEffectPattern.findAll
      (linesText (ds.map (ImportText.line semicolon)) ended)).map effectOf =
        ds.filterMap fun d => if d.isEffect then some d.entry else none :=
    findAll_linesText (refuses_sideEffectPattern (by decide)) ⟨by decide, by decide⟩
      fun _ d _ _ => reads_effect d semicolon _
  rw [imports_eq, requirePattern_findAll (equals_not_mem_lines semicolon ds ended), map_nil,
    append_nil, heffects, filterMap_ite]

/-- What a line has for the search for imports of something. -/
def ImportText.bindingEntry? (d : ImportText) : Option Import :=
  if !d.isEffect then some d.entry else none

theorem reads_of_semicolon (d : ImportText) (tail : List Char) :
    Reads fromPattern bindingOf (d.line true) d.bindingEntry?.toList tail := by
  cases d with
  | effect module => exact .of_passes (passes_fromPattern_semicolon module tail)
  | binding b module => exact reads_binding b module true tail

theorem reads_of_no_semicolon (h : d.isEffect → ∀ e ∈ ds, e.isEffect) (ended : Bool) :
    Reads fromPattern bindingOf (d.line false) d.bindingEntry?.toList
      (afterLine (ds.map (ImportText.line false)) ended) := by
  cases d with
  | effect module =>
    refine .of_passes (passes_fromPattern_effects (fun e he => ?_) ended)
    rcases mem_cons.mp he with rfl | he
    · rfl
    · exact h rfl e he
  | binding b module => exact reads_binding b module false _

/-- Every written import has a name without quotation marks. -/
theorem quote_not_mem_written {i : Import} (hi : i ∈ written ds) {name : String}
    (hname : i.default = some name) : '\'' ∉ name.toList := by
  have hrun : ∀ n : Name, '\'' ∉ (String.ofList n.text).toList := by
    intro n hmem
    rw [String.toList_ofList] at hmem
    exact absurd (n.all _ hmem) (by decide)
  have hentry : ∃ d : ImportText, i = d.entry := by
    rcases mem_append.mp hi with hi | hi
    · obtain ⟨d, -, rfl⟩ := mem_map.mp hi
      exact ⟨d, rfl⟩
    · obtain ⟨d, -, rfl⟩ := mem_map.mp hi
      exact ⟨d, rfl⟩
  obtain ⟨d, rfl⟩ := hentry
  cases d with
  | effect module => cases hname
  | binding b module =>
    cases b with
    | default n =>
      cases hname
      exact hrun n
    | named _ _ | everything _ => cases hname
    | defaultAndNamed n first more =>
      cases hname
      exact hrun n

/-- Where an import of something follows one for its effect, there is a first of these. -/
theorem exists_of_not_pairwise (h : ¬ ds.Pairwise fun d e => d.isEffect → e.isEffect) :
    ∃ front effect mid b module back,
      ds = front ++ .effect effect :: (mid ++ .binding b module :: back) ∧
        (∀ d ∈ front, d.isEffect = false) ∧ ∀ d ∈ mid, d.isEffect := by
  induction ds with
  | nil => exact absurd .nil h
  | cons d ds ih =>
    cases d with
    | binding b module =>
      have hmore : ¬ ds.Pairwise fun d e => d.isEffect → e.isEffect := by
        intro hmore
        refine h (pairwise_cons.mpr ⟨fun e _ heffect => ?_, hmore⟩)
        cases heffect
      obtain ⟨front, effect, mid, b', module', back, rfl, hfront, hmid⟩ := ih hmore
      refine ⟨.binding b module :: front, effect, mid, b', module', back, rfl, ?_, hmid⟩
      intro e he
      rcases mem_cons.mp he with rfl | he
      · rfl
      · exact hfront e he
    | effect module =>
      cases hfind : ds.find? fun e => !e.isEffect with
      | none =>
        have hall : ∀ e ∈ ds, e.isEffect := by
          intro e he
          simpa using find?_eq_none.mp hfind e he
        refine absurd (pairwise_cons.mpr ⟨fun e he _ => hall e he, ?_⟩) h
        exact pairwise_of_forall_mem_list fun _ _ e he _ => hall e he
      | some e =>
        obtain ⟨he, mid, back, rfl, hmid⟩ := find?_eq_some_iff_append.mp hfind
        cases e with
        | effect other => cases he
        | binding b other =>
          refine ⟨[], module, mid, b, other, back, rfl, by simp, fun d hd => ?_⟩
          simpa using hmid d hd

/-- **`imports` in lines are read back** if every line ends with a semicolon. Without semicolons
they are exactly if no import for its effect stands before an import of something. -/
theorem imports_read_back (ds : List ImportText) (ended : Bool) :
    imports (linesText (ds.map (ImportText.line true)) ended) = written ds ∧
      (imports (linesText (ds.map (ImportText.line false)) ended) = written ds ↔
        ds.Pairwise fun d e => d.isEffect = true → e.isEffect = true) := by
  have hfeed : fromPattern.Refuses (some '\n') := refuses_fromPattern (by decide)
  have hend : fromPattern.Refuses none := ⟨by decide, by decide⟩
  refine ⟨?_, fun h => ?_, fun h => ?_⟩
  · rw [imports_lines, findAll_linesText hfeed hend fun _ d _ _ => reads_of_semicolon d _]
    exact congrArg _ (filterMap_ite _ _ ds)
  · by_contra hnot
    obtain ⟨front, effect, mid, b, module, back, rfl, hfront, hmid⟩ := exists_of_not_pairwise hnot
    have hlines : ∀ x d y, front = x ++ d :: y → Reads fromPattern bindingOf (d.line false)
        d.bindingEntry?.toList
          (afterLine ((y ++ .effect effect :: (mid ++ .binding b module :: back)).map
          (ImportText.line false)) ended) := by
      rintro x d y rfl
      refine reads_of_no_semicolon (fun heffect => ?_) ended
      rw [hfront d (by simp)] at heffect
      cases heffect
    rw [imports_lines, findAll_eq_searchFrom] at h
    generalize htext :
      linesText ((front ++ .effect effect :: (mid ++ .binding b module :: back)).map
        (ImportText.line false)) ended = text at h
    obtain ⟨c, hc, hfound⟩ : ∃ c : Cursor,
        c.rest = linesText ((.effect effect :: (mid ++ .binding b module :: back)).map
          (ImportText.line false)) ended ∧
        (fromPattern.searchFrom text.length (.start text)).map bindingOf =
          front.filterMap ImportText.bindingEntry? ++
            (fromPattern.searchFrom text.length c).map bindingOf :=
      exists_searchFrom_lines hfeed hlines htext.symm
    obtain ⟨i, hi, name, hname, hquote⟩ := exists_swallowed hmid effect b module back ended _ hc
    have hmem := mem_append_right (front.filterMap ImportText.bindingEntry?) hi
    rw [← hfound] at hmem
    exact quote_not_mem_written (h ▸ mem_append_right _ hmem) hname hquote
  · have hlines : ∀ front d back, ds = front ++ d :: back → d.isEffect = true →
        ∀ e ∈ back, e.isEffect = true := by
      rintro front d back rfl heffect e he
      exact (pairwise_cons.mp (pairwise_append.mp h).2.1).1 e he heffect
    rw [imports_lines, findAll_linesText hfeed hend fun front d back hsplit =>
      reads_of_no_semicolon (hlines front d back hsplit) ended]
    exact congrArg _ (filterMap_ite _ _ ds)

end JavaScript

end CodeAtlas
