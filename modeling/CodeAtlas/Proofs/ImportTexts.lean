import CodeAtlas.Outline.JavaScript
import CodeAtlas.Proofs.Lines
import CodeAtlas.Proofs.Words

/-!
# Imports as written

An import is for the effect of a module, or of something from it: of a default, of names in braces,
of everything under one name, or of a default and of names. What stands between the words `import`
and `from` is read back as what is imported (`Bindings.importOf_text`).
-/

open List

namespace CodeAtlas

open Pattern Outline Text

namespace JavaScript

variable {c : Char}

/-! ## Imports as written -/

def isNameChar (c : Char) : Bool :=
  isWord c || c == '$'

def isModuleChar (c : Char) : Bool :=
  isWord c || among "./@-" c

abbrev Name : Type :=
  Run isNameChar

/-- What is imported from a module. -/
inductive Bindings where
  | default (name : Name)
  | named (first : Name) (more : List Name)
  | everything (name : Name)
  | defaultAndNamed (name first : Name) (more : List Name)

def braced (names : List Name) : List Char :=
  "\x7b ".toList ++ joinWith [',', ' '] (names.map Run.text) ++ " \x7d".toList

def reported (names : List Name) : List String :=
  names.map fun n => String.ofList n.text

namespace Bindings

/-- What stands between the words `import` and `from`. -/
def text : Bindings → List Char
  | default name => name.text
  | named first more => braced (first :: more)
  | everything name => "* as ".toList ++ name.text
  | defaultAndNamed name first more => name.text ++ ", ".toList ++ braced (first :: more)

def entry (module : List Char) : Bindings → Import
  | default name => ⟨String.ofList module, some (String.ofList name.text), [], none, false, false⟩
  | named first more => ⟨String.ofList module, none, reported (first :: more), none, false, false⟩
  | everything name =>
    ⟨String.ofList module, none, [], some (String.ofList name.text), false, false⟩
  | defaultAndNamed name first more =>
    ⟨String.ofList module, some (String.ofList name.text), reported (first :: more), none, false,
      false⟩

end Bindings

/-- An import: for the effect of a module, or of something from it. -/
inductive ImportText where
  | effect (module : Run isModuleChar)
  | binding (what : Bindings) (module : Run isModuleChar)

/-- The name of a module in quotation marks. -/
def inQuotes (module : Run isModuleChar) : List Char :=
  '\'' :: module.text ++ ['\'']

namespace ImportText

/-- An import as written, without a semicolon. -/
def text : ImportText → List Char
  | effect module => "import ".toList ++ inQuotes module
  | binding what module => "import ".toList ++ (what.text ++ (" from ".toList ++ inQuotes module))

def line (semicolon : Bool) (d : ImportText) : List Char :=
  d.text ++ if semicolon then [';'] else []

def isEffect : ImportText → Bool
  | effect _ => true
  | binding _ _ => false

def entry : ImportText → Import
  | effect module => ⟨String.ofList module.text, none, [], none, true, false⟩
  | binding what module => what.entry module.text

end ImportText

theorem ImportText.line_false (d : ImportText) : d.line false = d.text :=
  append_nil _

/-- The imports that are written, those for their effect first. -/
def written (ds : List ImportText) : List Import :=
  (ds.filter ImportText.isEffect).map ImportText.entry ++
    (ds.filter fun d => !d.isEffect).map ImportText.entry

/-! ## Bindings -/

theorem isBlank_of_isNameChar (h : isNameChar c) : isBlank c = false := by
  rcases (Bool.or_eq_true ..).mp h with h | h
  · exact isBlank_of_isWord h
  · rw [beq_iff_eq.mp h]
    decide

theorem isBlank_of_isModuleChar (h : isModuleChar c) : isBlank c = false := by
  rcases (Bool.or_eq_true ..).mp h with h | h
  · exact isBlank_of_isWord h
  · have hall : ∀ d ∈ "./@-".toList, isBlank d = false := by decide
    exact hall c (by simpa [among] using h)

variable {module : Run isModuleChar}

theorem of_mem_inQuotes (hc : c ∈ inQuotes module) : c = '\'' ∨ isModuleChar c := by
  rw [inQuotes, cons_append, mem_cons, mem_append, mem_singleton] at hc
  rcases hc with hc | hc | hc
  · exact .inl hc
  · exact .inr (module.all c hc)
  · exact .inl hc

theorem isBlank_of_mem_inQuotes (hc : c ∈ inQuotes module) : isBlank c = false := by
  rcases of_mem_inQuotes hc with rfl | hc
  · decide
  · exact isBlank_of_isModuleChar hc

theorem notAmong_of_mem_inQuotes (hc : c ∈ inQuotes module) : notAmong ";=" c := by
  rcases of_mem_inQuotes hc with rfl | hc
  · decide
  · exact notAmong_of_accepts hc (by decide)

theorem not_isQuote (h : notAmong "'\"" c) : (!isQuote c) := by
  simpa [notAmong, isQuote] using h

theorem Name.notAmong {n : Name} (hc : c ∈ n.text) : notAmong "\x7b\x7d*, ;='\"\r\n" c :=
  notAmong_of_accepts (n.all c hc) (by decide)

theorem firm_name (n : Name) : Firm isBlank n.text :=
  .of_forall fun c hc => isBlank_of_isNameChar (n.all c hc)

/-- `paramList` reads names with commas between them back. -/
theorem paramList_names (names : List Name) :
    paramList (joinWith [',', ' '] (names.map Run.text)) = reported names := by
  rw [paramList, commaList_joinWith, map_map]
  · rfl
  · intro piece hpiece
    obtain ⟨n, -, rfl⟩ := mem_map.mp hpiece
    exact ⟨n.ne_nil, fun hcomma => absurd (Name.notAmong hcomma) (by decide), firm_name n⟩

theorem bracedNames_braced (names : List Name) : bracedNames (braced names) = reported names := by
  have hfirm : Firm (among "\x7b\x7d ")
      (joinWith [',', ' '] (names.map Run.text)) := by
    refine .joinWith fun piece hpiece => ?_
    obtain ⟨n, -, rfl⟩ := mem_map.mp hpiece
    refine ⟨n.ne_nil, .of_forall fun c hc => ?_⟩
    have hnot := Name.notAmong hc
    simp [notAmong, among] at hnot ⊢
    grind
  rw [bracedNames, braced, trimBoth_enclosed _ _ (by decide) (by decide) hfirm, paramList_names]

theorem of_mem_braced {names : List Name} (h : c ∈ braced names) :
    among "\x7b\x7d, " c ∨ ∃ n : Name, c ∈ n.text := by
  have hopen : ∀ d ∈ "\x7b ".toList, among "\x7b\x7d, " d := by decide
  have hcomma : ∀ d ∈ [',', ' '], among "\x7b\x7d, " d := by decide
  have hclose : ∀ d ∈ " \x7d".toList, among "\x7b\x7d, " d := by decide
  rw [braced, mem_append, mem_append] at h
  rcases h with (h | h) | h
  · exact .inl (hopen c h)
  · rcases mem_joinWith h with h | ⟨piece, hpiece, hc⟩
    · exact .inl (hcomma c h)
    · obtain ⟨n, -, rfl⟩ := mem_map.mp hpiece
      exact .inr ⟨n, hc⟩
  · exact .inl (hclose c h)

theorem firm_braced (names : List Name) : Firm isBlank (braced names) := by
  refine ⟨rfl, ?_⟩
  have hsplit : braced names = ("\x7b ".toList ++
      joinWith [',', ' '] (names.map Run.text) ++ [' ']) ++ ['\x7d'] := by
    rw [append_assoc _ [' ']]
    rfl
  rw [hsplit, getLast?_concat]
  decide

namespace Bindings

variable (b : Bindings)

theorem of_mem_text (h : c ∈ b.text) : notAmong ";='\"\r\n" c := by
  have hname : ∀ n : Name, c ∈ n.text → notAmong ";='\"\r\n" c := fun n hc =>
    notAmong_of_accepts (n.all c hc) (by decide)
  have hbraced : ∀ names, c ∈ braced names → notAmong ";='\"\r\n" c := by
    intro names hc
    rcases of_mem_braced hc with hc | ⟨n, hc⟩
    · exact notAmong_of_accepts hc (by decide)
    · exact hname n hc
  cases b with
  | default name => exact hname name h
  | named first more => exact hbraced _ h
  | everything name =>
    rcases mem_append.mp h with h | h
    · have hall : ∀ d ∈ "* as ".toList, notAmong ";='\"\r\n" d := by decide
      exact hall c h
    · exact hname name h
  | defaultAndNamed name first more =>
    rcases mem_append.mp h with h | h
    · rcases mem_append.mp h with h | h
      · exact hname name h
      · have hall : ∀ d ∈ ", ".toList, notAmong ";='\"\r\n" d := by decide
        exact hall c h
    · exact hbraced _ h

theorem text_ne_nil : b.text ≠ [] := by
  cases b with
  | default name => exact name.ne_nil
  | named first more => simp [text, braced]
  | everything _ | defaultAndNamed _ _ _ => simp [text]

theorem firm : Firm isBlank b.text := by
  have hname : ∀ n : Name, ∀ rest, (n.text ++ rest).head?.any isBlank = false := by
    intro n rest
    rw [head?_append_of_ne_nil _ n.ne_nil]
    exact (firm_name n).head
  cases b with
  | default name => exact firm_name name
  | named first more => exact firm_braced _
  | everything name =>
    refine ⟨rfl, ?_⟩
    rw [text, getLast?_append_of_ne_nil _ name.ne_nil]
    exact (firm_name name).last
  | defaultAndNamed name first more =>
    refine ⟨?_, ?_⟩
    · rw [text, append_assoc]
      exact hname name _
    · rw [text, getLast?_append_of_ne_nil _ (by simp [braced])]
      exact (firm_braced _).last

theorem trim_text : trim b.text = b.text :=
  b.firm.trim

/-- A name is neither in braces nor the word for everything. -/
theorem beginsWith_name (n : Name) (after : List Char) :
    beginsWith ['\x7b'] (n.text ++ after) = false ∧
      beginsWith "* as".toList (n.text ++ after) = false := by
  obtain ⟨c, more, hc⟩ := exists_cons_of_ne_nil n.ne_nil
  have hnot : notAmong "\x7b*" c :=
    notAmong_of_accepts (n.all c (by simp [hc])) (by decide)
  have hne : '\x7b' ≠ c ∧ '*' ≠ c := by
    simp [notAmong] at hnot
    grind
  rw [hc]
  constructor
  · simp [beginsWith, isPrefixOf, hne.1]
  · simp [beginsWith, isPrefixOf, hne.2]

theorem comma_not_mem (n : Name) : ',' ∉ n.text := by
  intro hmem
  have hnot := Name.notAmong hmem
  revert hnot
  decide

/-- **`importOf` reads what is bound back** from the text between `import` and `from`. -/
theorem importOf_text (module : List Char) : importOf module b.text = b.entry module := by
  cases b with
  | default name =>
    have hbegins := beginsWith_name name []
    rw [append_nil] at hbegins
    have hcomma : name.text.contains ',' = false := by
      simpa using comma_not_mem name
    rw [text, importOf, hbegins.1, hbegins.2, hcomma]
    rfl
  | named first more =>
    have hbegins : beginsWith ['\x7b'] (braced (first :: more)) := rfl
    rw [text, importOf, hbegins, bracedNames_braced]
    rfl
  | everything name =>
    have hname : trim (' ' :: name.text) = name.text := by
      have htrim := trimBoth_enclosed [' '] [] (by decide) (by simp) (firm_name name)
      rwa [append_nil] at htrim
    have hdrop : ("* as ".toList ++ name.text).drop 4 = ' ' :: name.text := rfl
    have hbrace : beginsWith ['\x7b'] ("* as ".toList ++ name.text) = false := rfl
    have hstar : beginsWith "* as".toList ("* as ".toList ++ name.text) := rfl
    rw [text, importOf, hbrace, hstar, hdrop, hname]
    rfl
  | defaultAndNamed name first more =>
    have hbegins := beginsWith_name name (", ".toList ++ braced (first :: more))
    rw [← append_assoc] at hbegins
    have hcomma : (name.text ++ ", ".toList ++ braced (first :: more)).contains ',' := by
      simp
    have hall : ∀ c ∈ name.text, (c != ',') := by
      intro c hc
      rw [bne_iff_ne]
      rintro rfl
      exact comma_not_mem name hc
    have htake : (name.text ++ ", ".toList ++ braced (first :: more)).takeWhile (· != ',') =
        name.text := by
      rw [append_assoc, takeWhile_append_of_pos hall]
      exact append_nil _
    have hdrop : ((name.text ++ ", ".toList ++ braced (first :: more)).dropWhile
        (· != ',')).drop 1 = ' ' :: braced (first :: more) := by
      rw [append_assoc, dropWhile_append_of_pos hall]
      rfl
    have hbraced : trim (' ' :: braced (first :: more)) = braced (first :: more) := by
      have htrim := trimBoth_enclosed [' '] [] (by decide) (by simp)
        (firm_braced (first :: more))
      rwa [append_nil] at htrim
    rw [text, importOf, hbegins.1, hbegins.2, hcomma, htake, hdrop, (firm_name name).trim,
      hbraced, entry, ← bracedNames_braced]
    rfl

end Bindings

end JavaScript

end CodeAtlas
