import CodeAtlas.Proofs.LineEndings
import CodeAtlas.Proofs.Signatures

/-!
# Declared functions are read back

In Ruby, Kotlin and Swift, functions that are declared one after another are all found, with their
names and parameters and in order, and nothing else is (`functions_read_back`). For each language
the work is in one line: what leads up to the signature is passed, the signature is read, and the
closing line is not taken for a declaration.
-/

open List

namespace CodeAtlas

namespace Outline

open Pattern Text

/-! ## Visible functions -/

/-- The words that say where a function is visible. -/
def visibilities : List String :=
  ["public", "private", "internal"]

theorem areWords_visibilities : AreWords visibilities :=
  ⟨by decide +kernel, by decide +kernel⟩

/-- A function that may be declared with a visibility. -/
structure Declaration where
  visibility : Option (Modifier visibilities)
  signature : Signature

def Declaration.lead (keyword : String) (d : Declaration) : List Char :=
  d.visibility.elim [] Modifier.text ++ spaced keyword

/-- The line that declares a function, with the brace that opens its body. -/
def Declaration.line (keyword : String) (d : Declaration) : List Char :=
  d.lead keyword ++ d.signature.text ++ " \x7b".toList

/-- A function that a keyword declares, perhaps after a visibility. -/
def visibleFunction (keyword : String) (accepts : Char → Bool) : Pattern :=
  margin ++ optWord visibilities ++ lit keyword ++ blanks1 ++ group 1 (many1 accepts) ++ blanks ++
    parenthesised 2

/-- The keywords that declare functions. -/
structure DeclaresFunctions (keyword : String) : Prop where
  spaces : ∀ c ∈ spaced keyword, isBlank c = true → c = ' '
  head : (spaced keyword).head?.any isBlank = false
  apart : (oneOf (visibilities.map fun w => lit w ++ blanks1)).Refuses (spaced keyword).head?

section VisibleFunction

variable {keyword : String} {accepts : Char → Bool}

theorem readsLine_declaration (hkeyword : DeclaresFunctions keyword)
    (hword : ∀ c, isAsciiWord c → accepts c) (hparen : accepts '(' = false) (d : Declaration) :
    ReadsLine (visibleFunction keyword accepts) functionOf (d.line keyword)
      (some d.signature.function) := by
  have hhead : ∀ rest, (spaced keyword ++ rest).head? = (spaced keyword).head? :=
    fun rest => head?_append_of_ne_nil _ (spaced_ne_nil keyword)
  have hvisibility : ∀ bound rest, (optWord visibilities).Leads bound
      (d.visibility.elim [] Modifier.text) (spaced keyword ++ rest) [] := by
    intro bound rest
    cases d.visibility with
    | none =>
      -- the keyword begins like no visibility
      exact .opt_nil (.of_refuses (by rw [hhead]; exact hkeyword.apart))
    | some m => exact leads_optWord areWords_visibilities m (by rw [hhead]; exact hkeyword.head)
  refine readsLine_of_leads (fun _ _ => rfl) (by simp [Signature.text]) ?_ (fun bound rest =>
    ((hvisibility bound _).append (leads_spaced keyword (d.signature.head?_isBlank _))).append
      (leads_signature d.signature hword hparen _)) fun m hm => functionOf_eq d.signature hm
  rw [Declaration.lead, append_assoc]
  cases d.visibility with
  | none =>
    rw [Option.elim_none, nil_append, hhead]
    exact hkeyword.head
  | some m => exact areWords_visibilities.head?_isBlank m _

theorem oneLine_declaration (hkeyword : DeclaresFunctions keyword) (d : Declaration) :
    OneLine (d.line keyword) := by
  refine OneLine.of_signature d.signature ?_ (by decide)
  intro c hc hblank
  rw [Declaration.lead, mem_append] at hc
  rcases hc with hc | hc
  · cases hvisibility : d.visibility with
    | none => simp [hvisibility] at hc
    | some m =>
      rw [hvisibility] at hc
      exact areWords_visibilities.eq_space_of_mem m hc hblank
  · exact hkeyword.spaces c hc hblank

end VisibleFunction

/-! ## Kotlin and Swift -/

theorem declaresFunctions_fun : DeclaresFunctions "fun" :=
  ⟨by decide +kernel, by decide +kernel, ⟨by decide +kernel, by decide +kernel⟩⟩

theorem declaresFunctions_func : DeclaresFunctions "func" :=
  ⟨by decide +kernel, by decide +kernel, ⟨by decide +kernel, by decide +kernel⟩⟩

/-- Functions declared one after another, in braces. -/
def functionsText (keyword : String) (ds : List Declaration) (ended : Bool) : List Char :=
  declarationsText ['\x7d'] (ds.map (Declaration.line keyword)) ended

/-- **All functions of `functionsText` are found**, whatever their visibility. -/
theorem collectFunctions_functionsText {keyword : String} {accepts : Char → Bool}
    (hkeyword : DeclaresFunctions keyword)
    (hword : ∀ c, isAsciiWord c → accepts c) (hparen : accepts '(' = false)
    (hend : (visibleFunction keyword accepts).Refuses none)
    (hclose : (visibleFunction keyword accepts).Refuses (some '\x7d'))
    (hempty : (visibleFunction keyword accepts).findAll ['\n'] = [])
    (ds : List Declaration) (ended : Bool) :
    collectFunctions (visibleFunction keyword accepts) (functionsText keyword ds ended) =
      ds.map fun d => d.signature.function := by
  have hfound := findAll_declarationsText (anchored_of_lead rfl) hend hempty
    (readsLine_declaration hkeyword hword hparen) (readsLine_none_of_refuses hclose)
    (oneLine_declaration hkeyword) oneLine_brace ds ended
  rw [filterMap_eq_map'] at hfound
  exact hfound

theorem kotlin_functions (ds : List Declaration) (ended : Bool) :
    Kotlin.functions (functionsText "fun" ds ended) = ds.map fun d => d.signature.function := by
  refine collectFunctions_functionsText declaresFunctions_fun (fun c hc => ?_) (by decide)
    ⟨by decide +kernel, by decide +kernel⟩ ⟨by decide +kernel, by decide +kernel⟩ rfl ds ended
  simp [Kotlin.isFunctionChar, hc]

theorem swift_functions (ds : List Declaration) (ended : Bool) :
    Swift.functions (functionsText "func" ds ended) = ds.map fun d => d.signature.function :=
  collectFunctions_functionsText declaresFunctions_func (fun _ hc => hc) (by decide)
    ⟨by decide +kernel, by decide +kernel⟩ ⟨by decide +kernel, by decide +kernel⟩ rfl ds ended

/-! ## Ruby -/

def methodLine (d : Signature) : List Char :=
  spaced "def" ++ d.text

def methodsText (ds : List Signature) (ended : Bool) : List Char :=
  declarationsText "end".toList (ds.map methodLine) ended

def methodOf (m : Match) : Function :=
  ⟨String.ofList (m.group 1), paramList (trimBoth (among "()") (m.group 2))⟩

/-- A signature is read where the parentheses are remembered with the parameters, and may be
missing. -/
theorem leads_method {bound : Nat} (d : Signature) (rest : List Char) :
    (group 1 (many1 Ruby.isMethodChar) ++ blanks ++
      opt (group 2 (lit "(" ++ many (notAmong ")") ++ lit ")"))).Leads bound d.text rest
      [(2, '(' :: d.paramText ++ [')']), (1, d.name.text)] := by
  have hname : ∀ c ∈ d.name.text, Ruby.isMethodChar c := by
    intro c hc
    simp [Ruby.isMethodChar, d.name.word c hc]
  have hclass : ∀ c ∈ d.paramText, notAmong ")" c := by
    intro c hc
    have hparens := d.notAmong_parens hc
    simp [among] at hparens
    simp [notAmong, hparens.2]
  have hleads : (group 1 (many1 Ruby.isMethodChar) ++ blanks ++
      opt (group 2 (lit "(" ++ many (notAmong ")") ++ lit ")"))).Leads bound
      (d.name.text ++ [] ++ ('(' :: d.paramText ++ [')'])) rest _ :=
    (((Leads.many1 d.name.ne_nil hname rfl).group 1).append (.many (by simp) rfl)).append
      ((((Leads.lit "(" _).append (.many hclass rfl)).append (.lit ")" rest)).group 2).opt
  rwa [append_nil] at hleads

theorem methodOf_eq (d : Signature) {m : Match} (h : ∀ index, m.group? index =
      [(2, '(' :: d.paramText ++ [')']), (1, d.name.text)].lookup index) :
    methodOf m = d.function := by
  have htrim : trimBoth (among "()") ('(' :: d.paramText ++ [')']) = d.paramText :=
    trimBoth_enclosed ['('] [')'] (by decide) (by decide)
      (.of_forall fun c hc => d.notAmong_parens hc)
  rw [methodOf, Match.group, Match.group, h, h]
  show Function.mk _ (paramList (trimBoth (among "()") ('(' :: d.paramText ++ [')']))) = _
  rw [htrim, paramList_paramText]
  rfl

theorem readsLine_method (d : Signature) :
    ReadsLine Ruby.methodPattern methodOf (methodLine d) (some d.function) := by
  rw [methodLine, ← append_nil (spaced "def" ++ d.text)]
  exact readsLine_of_leads (fun _ _ => rfl) (by simp [spaced]) rfl (fun bound rest =>
    (leads_spaced "def" (d.head?_isBlank _)).append (leads_method d _)) fun m hm => methodOf_eq d hm

theorem oneLine_method (d : Signature) : OneLine (methodLine d) := by
  have hline : OneLine (spaced "def" ++ d.text ++ []) :=
    OneLine.of_signature d (by decide) (by decide)
  rwa [append_nil] at hline

theorem oneLine_end : OneLine "end".toList :=
  ⟨by decide, by decide⟩

/-- **All methods of `methodsText` are found.** -/
theorem ruby_functions (ds : List Signature) (ended : Bool) :
    Ruby.functions (methodsText ds ended) = ds.map Signature.function := by
  have hclose : Ruby.methodPattern.Refuses (some 'e') := ⟨by decide +kernel, by decide +kernel⟩
  have hfound := findAll_declarationsText (anchored_of_lead rfl)
    ⟨by decide +kernel, by decide +kernel⟩ rfl readsLine_method
    (readsLine_none_of_refuses hclose : ReadsLine _ methodOf "end".toList none)
    oneLine_method oneLine_end ds ended
  rw [filterMap_eq_map'] at hfound
  exact hfound

end Outline

/-! ## Files -/

namespace Survey

open Outline

/-- **Declared functions are read back.** A file that holds functions one after another, each with
its closing line, is reported with exactly these functions in their order. -/
theorem functions_read_back (w : Workspace) (path : String) (ended : Bool) :
    (∀ ds : List Signature,
      w.readFile path = .ok ((methodsText ds ended).flatMap String.utf8EncodeChar) →
        ∃ o : Ruby.Outline,
          inLanguage w path .ruby = .ok ⟨path, some Language.ruby.name, .ruby o⟩ ∧
            o.functions = ds.map Signature.function) ∧
    (∀ ds : List Declaration,
      w.readFile path = .ok ((functionsText "fun" ds ended).flatMap String.utf8EncodeChar) →
        ∃ o : Kotlin.Outline,
          inLanguage w path .kotlin = .ok ⟨path, some Language.kotlin.name, .kotlin o⟩ ∧
            o.functions = ds.map fun d => d.signature.function) ∧
    (∀ ds : List Declaration,
      w.readFile path = .ok ((functionsText "func" ds ended).flatMap String.utf8EncodeChar) →
        ∃ o : Swift.Outline,
          inLanguage w path .swift = .ok ⟨path, some Language.swift.name, .swift o⟩ ∧
            o.functions = ds.map fun d => d.signature.function) := by
  have hreturn : ∀ keyword, DeclaresFunctions keyword → ∀ ds : List Declaration,
      '\r' ∉ functionsText keyword ds ended := by
    intro keyword hkeyword ds
    refine return_not_mem_declarationsText oneLine_brace (fun head hhead => ?_) ended
    obtain ⟨d, -, rfl⟩ := mem_map.mp hhead
    exact oneLine_declaration hkeyword d
  refine ⟨fun ds hread => ?_, fun ds hread => ?_, fun ds hread => ?_⟩
  · have hreturn' : '\r' ∉ methodsText ds ended := by
      refine return_not_mem_declarationsText oneLine_end (fun head hhead => ?_) ended
      obtain ⟨d, -, rfl⟩ := mem_map.mp hhead
      exact oneLine_method d
    exact ⟨_, plain_of_encode .ruby _ hread hreturn', ruby_functions ds ended⟩
  · exact ⟨_, plain_of_encode .kotlin _ hread (hreturn "fun" declaresFunctions_fun ds),
      kotlin_functions ds ended⟩
  · exact ⟨_, plain_of_encode .swift _ hread (hreturn "func" declaresFunctions_func ds),
      swift_functions ds ended⟩

/-- A name with a parameter of two tokens and one of one token. -/
def twoParameters : Signature :=
  ⟨.f,
    [⟨⟨['a', ':'], cons_ne_nil _ _, by decide⟩, [⟨['T'], cons_ne_nil _ _, by decide⟩]⟩,
      ⟨⟨['b'], cons_ne_nil _ _, by decide⟩, []⟩]⟩

/-- A private function of two parameters, and a second one of the same name. -/
theorem functions_read_back_two :
    (∃ o : Kotlin.Outline, inLanguage (oneFile
        ("private fun f(a: T, b) \x7b\n\x7d\nfun f(a: T, b) \x7b\n\x7d\n".toList.flatMap
          String.utf8EncodeChar)) "a.rb" .kotlin = .ok ⟨"a.rb", some "kotlin", .kotlin o⟩ ∧
        o.functions = [⟨"f", ["a: T", "b"]⟩, ⟨"f", ["a: T", "b"]⟩]) ∧
      ∃ o : Ruby.Outline, inLanguage (oneFile ("def f(a: T, b)\nend\n".toList.flatMap
        String.utf8EncodeChar)) "a.rb" .ruby = .ok ⟨"a.rb", some "ruby", .ruby o⟩ ∧
          o.functions = [⟨"f", ["a: T", "b"]⟩] := by
  have hkotlin := (functions_read_back (oneFile ((functionsText "fun"
    [⟨some ⟨"private", by decide⟩, twoParameters⟩, ⟨none, twoParameters⟩] true).flatMap
      String.utf8EncodeChar)) "a.rb" true).2.1 _ (readFile_oneFile _)
  have hruby := (functions_read_back (oneFile ((methodsText [twoParameters] true).flatMap
    String.utf8EncodeChar)) "a.rb" true).1 _ (readFile_oneFile _)
  exact ⟨hkotlin, hruby⟩

end Survey

end CodeAtlas
