import CodeAtlas.Proofs.MarkedOutlines
import CodeAtlas.Proofs.OpeningTag
import CodeAtlas.Survey

/-!
# The first line behind a byte order mark

Eleven outlines look for declarations at the margin of a line and for the rest (comments, selectors,
routes) anywhere. A byte order mark hides the first line from the former and is overlooked by the
latter. So what is found behind a mark is made of two texts: the lines after the first for what
stands at the margin, and the whole text for the rest. `findingOf` gives what is found in a text
with these two told apart; `findingOf_marked` is the result for all languages at once.

The opening tag of a PHP text is not removed behind a mark. But no declaration begins with white
space or with a tag, so if nothing is declared on the line of the tag, the same is found
(`Php.sameFound_body`).
-/

open List

namespace CodeAtlas

open Pattern Outline Text

variable {p : Pattern}

/-- The outline of a PHP text that has no opening tag, or whose tag counts as text. -/
def Php.outlineOfBody (body : List Char) : Php.Outline where
  namespaces := collectTexts (declares "namespace" (many1 isQualifiedChar) ++ lit ";") 1 body
  uses := collectTexts (declares "use" (many1 isQualifiedChar) ++ lit ";") 1 body
  classes := collectTexts classPattern 1 body
  functions := collectFunctions functionPattern body
  comments := collectWhole (lineComment "//") body
  docblocks := collectWhole (blockComment "/**") body

theorem Php.outline_eq (code : List Char) : outline code = outlineOfBody (body code) := rfl

def Php.commentPatterns : List Pattern :=
  [lineComment "//", blockComment "/**"]

namespace Survey

variable {language : Option Language}

/-! ## The patterns at the margin -/

/-- The patterns of a language that are looked for at the margin; without a language, those of the
heuristic outline. -/
@[simp] def linePatterns : Option Language → List Pattern
  | some .go => [Go.packagePattern]
  | some .ruby =>
    [Ruby.importPattern, declares "module" capitalWord, declares "class" capitalWord,
      Ruby.methodPattern]
  | some .kotlin =>
    [declares "package" (many1 isDottedWord), declares "import" (many1 isDottedWord),
      Kotlin.classPattern, declares "object" capitalWord, Kotlin.functionPattern]
  | some .rust =>
    [declares "use" (many1 (notAmong ";")) ++ lit ";",
      margin ++ lit "extern" ++ blanks1 ++ lit "crate" ++ blanks1 ++ group 1 (many1 isWord),
      Rust.typePattern "struct", Rust.typePattern "enum", Rust.typePattern "trait",
      Rust.functionPattern,
      margin ++ lit "macro_rules!" ++ blanks ++ group 1 (many1 isAsciiWord)]
  | some .cpp =>
    [bracketed "#include", declares "namespace" (many1 isAsciiWord),
      declares "class" capitalName, declares "struct" capitalName, Cpp.functionPattern,
      declares "#define" (many1 Cpp.isMacroChar)]
  | some .c =>
    [bracketed "#include", declares "struct" (many1 isAsciiWord), C.functionPattern,
      declares "#define" (many1 C.isMacroChar)]
  | some .cSharp =>
    [declares "using" (many1 isDottedName) ++ blanks ++ lit ";",
      declares "namespace" (many1 isDottedName), CSharp.classPattern,
      declares "interface" capitalName, CSharp.functionPattern]
  | some .php =>
    [declares "namespace" (many1 Php.isQualifiedChar) ++ lit ";",
      declares "use" (many1 Php.isQualifiedChar) ++ lit ";", Php.classPattern, Php.functionPattern]
  | some .swift =>
    [declares "import" (many1 isDottedName), Swift.classPattern, declares "struct" capitalName,
      declares "enum" capitalName, Swift.functionPattern]
  | some .objectiveC =>
    [bracketed "#import", bracketed "#include", declares "@interface" capitalName,
      declares "@implementation" capitalName]
  | none =>
    Heuristic.importPatterns ++
      [Heuristic.classPattern, Heuristic.functionPattern, Heuristic.constantPattern]
  | some _ => []

/-- What is found in a text, the declarations at the margin being looked for in another. -/
def findingOf (language : Option Language) (lines code : List Char) : Except Refusal Finding :=
  match language with
  | some .python =>
    .ok (match Python.outline code with
      | .ok outline => .python outline
      | .error why => .unparsed why)
  | some .java => .ok (.java (Java.outline code))
  | some .javaScript => .ok (.javaScript (JavaScript.outline code))
  | some .typeScript => .ok (.typeScript (TypeScript.outline code))
  | some .go => .ok (.go { Go.outline code with package := Go.package? lines })
  | some .ruby =>
    .ok (.ruby { Ruby.outline lines with
      comments := (Ruby.outline code).comments
      docblocks := (Ruby.outline code).docblocks })
  | some .kotlin =>
    .ok (.kotlin { Kotlin.outline lines with
      comments := (Kotlin.outline code).comments
      docblocks := (Kotlin.outline code).docblocks })
  | some .rust =>
    .ok (.rust { Rust.outline lines with
      comments := (Rust.outline code).comments
      blockComments := (Rust.outline code).blockComments })
  | some .cpp =>
    .ok (.cpp { Cpp.outline lines with
      comments := (Cpp.outline code).comments
      blockComments := (Cpp.outline code).blockComments })
  | some .c =>
    .ok (.c { C.outline lines with
      comments := (C.outline code).comments
      blockComments := (C.outline code).blockComments })
  | some .cSharp =>
    .ok (.cSharp { CSharp.outline lines with
      comments := (CSharp.outline code).comments
      xmlComments := (CSharp.outline code).xmlComments })
  | some .php =>
    .ok (.php { Php.outlineOfBody lines with
      comments := (Php.outlineOfBody code).comments
      docblocks := (Php.outlineOfBody code).docblocks })
  | some .swift =>
    .ok (.swift { Swift.outline lines with
      comments := (Swift.outline code).comments
      docblocks := (Swift.outline code).docblocks })
  | some .objectiveC =>
    .ok (.objectiveC { ObjectiveC.outline lines with
      methods := (ObjectiveC.outline code).methods
      comments := (ObjectiveC.outline code).comments
      blockComments := (ObjectiveC.outline code).blockComments })
  | some .sql => .error .noComments
  | none =>
    .ok (.heuristic { Heuristic.outline lines with
      functions := collectFunctions Heuristic.functionPattern lines ++
        (Heuristic.outline code).selectors.map fun s => ⟨s, []⟩
      selectors := (Heuristic.outline code).selectors
      endpoints := (Heuristic.outline code).endpoints })

/-! ## What the patterns have in common -/

theorem mem_languages (language : Option Language) : language ∈ none :: Language.all.map some := by
  cases language with
  | none => exact mem_cons_self
  | some language => cases language <;> decide

/-- The patterns of these languages that are looked for anywhere. -/
@[simp] def otherPatterns : List Pattern :=
  [lineComment "#", lineComment "//", lineComment "///", blockComment "/*", blockComment "/**",
    ObjectiveC.methodPattern, Heuristic.selectorPattern, Heuristic.endpointPattern]

theorem otherPatterns_overlook : ∀ p ∈ otherPatterns, p.overlooks byteOrderMark := by
  decide +kernel

theorem commentPatterns_overlook (p : Pattern) (hp : p ∈ Php.commentPatterns) :
    p.overlooks byteOrderMark := by
  refine otherPatterns_overlook p ?_
  simp only [Php.commentPatterns, mem_cons, not_mem_nil, or_false] at hp
  rcases hp with rfl | rfl <;> simp

theorem linePatterns_checked :
    (∀ language ∈ none :: Language.all.map some, ∀ p ∈ linePatterns language,
      p.declaration.beginsVisibly ∧ p.shuns byteOrderMark) ∧
      ∀ p ∈ linePatterns (some .php), p.declaration.shuns '<' := by
  decide +kernel

theorem linePatterns_atMargin (h : p ∈ linePatterns language) : AtMargin p := by
  have hleads : (linePatterns language).map (fun p => (p.lead, p.trail.lead)) =
      replicate (linePatterns language).length (lineStart, blanks) := by
    cases language with
    | none => rfl
    | some language => cases language <;> rfl
  have hlead : (p.lead, p.trail.lead) = (lineStart, blanks) := by
    refine eq_of_mem_replicate (n := (linePatterns language).length) ?_
    rw [← hleads]
    exact mem_map_of_mem h
  exact ⟨congrArg Prod.fst hlead, congrArg Prod.snd hlead,
    (linePatterns_checked.1 language (mem_languages language) p h).1⟩

theorem linePatterns_refuse (h : p ∈ linePatterns language) : p.Refuses (some byteOrderMark) :=
  refuses_of_shuns (linePatterns_checked.1 language (mem_languages language) p h).2

/-! ## The outlines -/

/-- The `linePatterns` find the same behind a mark as in another text. -/
def SameLines (language : Option Language) (lines code : List Char) : Prop :=
  ∀ p ∈ linePatterns language, SameFound p lines (byteOrderMark :: code)

/-- `findingOf` a text behind a mark is that of one text at the margin and another elsewhere. -/
def SameFinding (language : Option Language) (lines code : List Char) : Prop :=
  findingOf language (byteOrderMark :: code) (byteOrderMark :: code) =
    findingOf language lines code

section Outlines

variable {language : Option Language} {lines code : List Char} {p : Pattern}

theorem SameLines.collectTexts (h : SameLines language lines code)
    (hp : p ∈ linePatterns language) (index : Nat) :
    collectTexts p index (byteOrderMark :: code) = collectTexts p index lines :=
  (h p hp).collectTexts index

theorem SameLines.collectFunctions (h : SameLines language lines code)
    (hp : p ∈ linePatterns language) :
    collectFunctions p (byteOrderMark :: code) = collectFunctions p lines :=
  (h p hp).collectFunctions

theorem collectWhole_others (hp : p ∈ otherPatterns) :
    collectWhole p (byteOrderMark :: code) = collectWhole p code :=
  collectWhole_marked (otherPatterns_overlook p hp) code

-- in the proofs below `id` keeps a membership as it is stated, where simp has unfolded the list

theorem ruby_marked (h : SameLines (some .ruby) lines code) :
    SameFinding (some .ruby) lines code := by
  have hfunctions : Ruby.functions (byteOrderMark :: code) = Ruby.functions lines :=
    (h Ruby.methodPattern (by simp)).map fun group =>
      (⟨String.ofList ((group 1).getD []),
        paramList (trimBoth (among "()") ((group 2).getD []))⟩ : Function)
  simp (disch := exact id (by simp)) only
    [SameFinding, findingOf, Ruby.outline, h.collectTexts, hfunctions, collectWhole_others]

theorem cpp_marked (h : SameLines (some .cpp) lines code) : SameFinding (some .cpp) lines code := by
  have hfunctions : Cpp.functions (byteOrderMark :: code) = Cpp.functions lines :=
    (h Cpp.functionPattern (by simp)).map fun group =>
      (⟨String.ofList (trim ((group 2).getD [])), String.ofList (trim ((group 1).getD [])),
        paramList ((group 3).getD [])⟩ : Prototype)
  simp (disch := exact id (by simp)) only
    [SameFinding, findingOf, Cpp.outline, h.collectTexts, hfunctions, collectWhole_others]

theorem c_marked (h : SameLines (some .c) lines code) : SameFinding (some .c) lines code := by
  have hfunctions : C.functions (byteOrderMark :: code) = C.functions lines :=
    (h C.functionPattern (by simp)).map fun group =>
      (⟨String.ofList ((group 2).getD []),
        String.ofList (joinWith [' '] (words ((group 1).getD []))),
        paramList ((group 3).getD [])⟩ : Prototype)
  simp (disch := exact id (by simp)) only
    [SameFinding, findingOf, C.outline, h.collectTexts, hfunctions, collectWhole_others]

theorem objectiveC_marked (h : SameLines (some .objectiveC) lines code) :
    SameFinding (some .objectiveC) lines code := by
  have hmethod : Overlooks byteOrderMark ObjectiveC.methodPattern :=
    overlooks_of_eq_true (otherPatterns_overlook _ (by simp))
  simp (disch := exact id (by simp)) only
    [SameFinding, findingOf, ObjectiveC.outline, h.collectTexts, hmethod.collectAll,
      collectWhole_others]

/-- In PHP the comments may be compared with those of a third text. -/
theorem php_eq {text : List Char} (h : ∀ p ∈ linePatterns (some .php), SameFound p lines text)
    (hcomments : ∀ p ∈ Php.commentPatterns, collectWhole p text = collectWhole p code) :
    Php.outlineOfBody text = { Php.outlineOfBody lines with
        comments := (Php.outlineOfBody code).comments
        docblocks := (Php.outlineOfBody code).docblocks } := by
  simp only [linePatterns, Php.commentPatterns, forall_mem_cons] at h hcomments
  obtain ⟨hnamespace, huse, hclass, hfunction, -⟩ := h
  simp only [Php.outlineOfBody, hnamespace.collectTexts, huse.collectTexts, hclass.collectTexts,
    hfunction.collectFunctions, hcomments.1, hcomments.2.1]

theorem heuristic_marked (h : SameLines none lines code) : SameFinding none lines code := by
  have himports := (forall_mem_append.mp h).1
  have hselector := otherPatterns_overlook Heuristic.selectorPattern (by simp)
  have hendpoint := otherPatterns_overlook Heuristic.endpointPattern (by simp)
  have himports' : (Heuristic.importPatterns.flatMap fun p => p.collect 1 (byteOrderMark :: code)) =
      Heuristic.importPatterns.flatMap fun p => p.collect 1 lines := by
    refine flatMap_congr fun p hp => ?_
    exact (himports p hp).map fun group => (group 1).getD []
  simp (disch := exact id (by simp)) only
    [SameFinding, findingOf, Heuristic.outline, himports', h.collectTexts, h.collectFunctions,
      collect_marked hselector, map_findAll_marked hendpoint, Match.group_move]

end Outlines

/-- **What `findingOf` has behind a mark**: what is declared at the margin is found in the lines
that the mark does not hide, and the rest in the whole text. -/
theorem findingOf_marked {lines code : List Char} (hpython : language ≠ some .python)
    (htypeScript : language ≠ some .typeScript) (h : SameLines language lines code) :
    SameFinding language lines code := by
  cases language with
  | none => exact heuristic_marked h
  | some language =>
    cases language with
    | python => exact absurd rfl hpython
    | typeScript => exact absurd rfl htypeScript
    | java => simp only [SameFinding, findingOf, Java.outline_marked]
    | javaScript => simp only [SameFinding, findingOf, JavaScript.outline_marked]
    | go =>
      have hpackage : Go.package? (byteOrderMark :: code) = Go.package? lines :=
        (h Go.packagePattern mem_cons_self).find? fun group =>
          String.ofList ((group 1).getD [])
      simp only [SameFinding, findingOf, Go.outline_marked, hpackage]
    | ruby => exact ruby_marked h
    | cpp => exact cpp_marked h
    | c => exact c_marked h
    | php =>
      have hcomments : ∀ p ∈ Php.commentPatterns,
          collectWhole p (byteOrderMark :: code) = collectWhole p code :=
        fun p hp => collectWhole_marked (commentPatterns_overlook p hp) code
      simp only [SameFinding, findingOf, php_eq h hcomments]
    | kotlin | rust | cSharp | swift =>
      simp (disch := exact id (by simp)) only [SameFinding, findingOf, Kotlin.outline,
        Kotlin.functions, Rust.outline, Rust.functions, CSharp.outline, CSharp.functions,
        Swift.outline, Swift.functions, h.collectTexts, h.collectFunctions, collectWhole_others]
    | objectiveC => exact objectiveC_marked h
    | sql => rfl

end Survey

/-! ## Opening tags behind a mark -/

namespace Php

section Tag

variable {v tag : List Char} (hv : ∀ c ∈ v, isBlank c = true) (htag : IsTag tag)

include hv htag

/-- What stands at the start of a line before the end of the tag is white space and the tag. -/
theorem exists_of_lineStart {passed rest : List Char} (h : v ++ tag = passed ++ rest)
    (hfeed : passed.getLast? = some '\n') : ∃ w, rest = w ++ tag ∧ ∀ c ∈ w, isBlank c := by
  rcases append_eq_append_iff.mp h with ⟨more, hpassed, hrest⟩ | ⟨w, hblank, hrest⟩
  · -- the line feed is in the white space, as the tag has none
    by_cases hmore : more = []
    · subst hmore
      exact ⟨[], hrest.symm, by simp⟩
    · refine absurd ?_ (htag.not_mem (x := '\n') (by simp))
      rw [hpassed, getLast?_append_of_ne_nil _ hmore] at hfeed
      rw [hrest]
      exact mem_append_left _ (mem_of_getLast? hfeed)
  · exact ⟨w, hrest, fun c hc => hv c (by rw [hblank]; exact mem_append_right _ hc)⟩

/-- A pattern `AtMargin` finds nothing before the end of the tag. -/
theorem passesOver_tag (hp : AtMargin p) (hmark : p.Refuses (some byteOrderMark))
    (hbracket : p.declaration.Refuses (some '<')) (body : List Char) :
    PassesOver p (byteOrderMark :: (v ++ tag)) body := by
  intro bound passed d between hsplit
  cases passed with
  | nil =>
    obtain ⟨rfl, -⟩ := cons.inj hsplit
    exact Refuses.advance_eq_none hmark
  | cons e passed =>
    obtain ⟨rfl, hparts⟩ := cons.inj hsplit
    by_cases hstart : ((Cursor.start (byteOrderMark :: (v ++ tag) ++ body)).pass
        (byteOrderMark :: passed) (d :: between ++ body)).AtLineStart
    · have hfeed : passed.getLast? = some '\n' := by
        rcases eq_nil_or_concat passed with rfl | ⟨front, c, rfl⟩
        · exact absurd hstart (not_atLineStart_of_last (by decide) [] _ _)
        · by_cases hc : c = '\n'
          · simp [hc]
          · have hlast : byteOrderMark :: front.concat c = byteOrderMark :: front ++ [c] := by
              simp
            rw [hlast] at hstart
            exact absurd hstart (not_atLineStart_of_last hc _ _ _)
      obtain ⟨w, hrest, hw⟩ := exists_of_lineStart hv htag hparts hfeed
      obtain ⟨more, hmore⟩ := htag.eq_cons
      rw [hp.advance_lineStart hstart (v := w) (r := tag ++ body)
        (by rw [← append_assoc, ← hrest]; rfl) hw (by rw [hmore]; rfl)]
      refine Refuses.advance_eq_none ?_
      show p.declaration.Refuses (tag ++ body).head?
      rw [hmore]
      exact hbracket
    · exact hp.anchored bound some _ hstart

/-- Comments begin neither with the mark nor in the tag. -/
theorem findAll_tag (hp : p.edgeless) (hslash : ∀ d, d ≠ '/' → p.Refuses (some d))
    (body : List Char) : p.findAll (byteOrderMark :: (v ++ tag) ++ body) =
      (p.findAll body).map (Match.move (byteOrderMark :: (v ++ tag)).length) := by
  have hfront : ∀ d ∈ byteOrderMark :: (v ++ tag), d ≠ '/' := by
    intro d hd
    rw [mem_cons, mem_append] at hd
    rcases hd with rfl | hd | hd
    · decide
    · rintro rfl
      exact absurd (hv _ hd) (by decide)
    · rintro rfl
      exact htag.not_mem (by simp) hd
  have hover : PassesOver p (byteOrderMark :: (v ++ tag)) body :=
    passesOver_of_refuses (fun d hd => hslash d (hfront d hd)) body
  obtain ⟨front, x, hlast⟩ := (eq_nil_or_concat (byteOrderMark :: (v ++ tag))).resolve_left
    (by simp)
  rw [concat_eq_append] at hlast
  rw [hlast] at hover ⊢
  exact findAll_append hover (blind_of_edgeless hp)

end Tag

/-- **A tag declares nothing**: behind a mark, what is found at the margin is what is found in the
`body`, if its first line is blank or nothing matches at its start. -/
theorem sameFound_body {code : List Char} (hp : p ∈ Survey.linePatterns (some .php))
    (h : FirstLineBlank (body code) ∨ p.matchStart? (body code) = none) :
    SameFound p (body code) (byteOrderMark :: code) := by
  have hmargin := Survey.linePatterns_atMargin hp
  have hmark := Survey.linePatterns_refuse hp
  rcases body_cases code with hbody | ⟨v, tag, hv, htag, hcode⟩
  · rw [hbody] at h ⊢
    exact hmargin.sameFound_append (by decide) (hmark.passesOver code) h
  · have hbracket := refuses_of_shuns (Survey.linePatterns_checked.2 p hp)
    have hover := passesOver_tag hv htag hmargin hmark hbracket (body code)
    obtain ⟨front, x, hlast⟩ := (eq_nil_or_concat tag).resolve_left
      (by obtain ⟨more, rfl⟩ := htag.eq_cons; simp)
    have hx : x ≠ '\n' := by
      rintro rfl
      exact htag.not_mem (x := '\n') (by simp) (by simp [hlast])
    have hfront : byteOrderMark :: (v ++ tag) = byteOrderMark :: (v ++ front) ++ [x] := by
      simp [hlast]
    rw [hfront] at hover
    have hfound := hmargin.sameFound_append hx hover h
    rw [← hfront, cons_append, ← hcode] at hfound
    exact hfound

theorem collectWhole_body (code : List Char) (hp : p ∈ commentPatterns) :
    collectWhole p (byteOrderMark :: code) = collectWhole p (body code) := by
  have hoverlooks := Survey.commentPatterns_overlook p hp
  rcases body_cases code with hbody | ⟨v, tag, hv, htag, hcode⟩
  · rw [hbody]
    exact collectWhole_marked hoverlooks code
  · have hslash : ∀ d, d ≠ '/' → p.Refuses (some d) := by
      intro d hd
      simp only [commentPatterns, mem_cons, not_mem_nil, or_false] at hp
      have hbegin : ∀ accepts ∈ [(· == '/')], accepts d = false := by simpa using hd
      rcases hp with rfl | rfl
      · exact .of_heads rfl hbegin
      · exact .of_heads rfl hbegin
    rw [overlooks, Bool.and_eq_true] at hoverlooks
    have hfound := findAll_tag hv htag hoverlooks.1 hslash (body code)
    rw [cons_append, ← hcode] at hfound
    have hall : p.collectAll (byteOrderMark :: code) = p.collectAll (body code) := by
      rw [collectAll, hfound, map_map]
      exact map_congr_left fun m _ => Match.text_move _ m
    rw [collectWhole, hall]
    rfl

end Php

end CodeAtlas
