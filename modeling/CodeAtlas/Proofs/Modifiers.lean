import CodeAtlas.Proofs.LineEndings
import CodeAtlas.Proofs.OpeningTag

/-!
# Modifiers and the functions found

In Rust, PHP and C#, whether a declared function is found depends on the words before it: a Rust
function has to be public, a PHP function must have no modifier, and a C# function needs exactly
one. Of functions declared one after another exactly those are found, so all of them are if and only
if each has the words that its language asks for (`functions_found_iff`).

What is missed is missed for three reasons: a line may begin with what the pattern refuses, with a
word that is not the keyword, or with more words than the pattern has places for.
-/

open List

namespace CodeAtlas

namespace Outline

open Pattern Text

/-- If of a list some members are found and the meaning of each is kept, all are found exactly if
each one is. -/
theorem map_filter_eq_map_iff {α β : Type} {f : α → β} {p : α → Bool} {l : List α} :
    (l.filter p).map f = l.map f ↔ ∀ a ∈ l, p a := by
  constructor
  · intro h
    have hlength := congrArg length h
    rw [length_map, length_map] at hlength
    exact length_filter_eq_length_iff.mp hlength
  · intro h
    rw [filter_eq_self.mpr h]

/-! ## Rust: public functions -/

/-- A function that may be declared public. -/
structure RustFunction where
  isPublic : Bool
  signature : Signature

def RustFunction.line (d : RustFunction) : List Char :=
  (if d.isPublic then spaced "pub" else []) ++ spaced "fn" ++ d.signature.text ++ " \x7b".toList

theorem readsLine_rust (d : RustFunction) : ReadsLine Rust.functionPattern functionOf d.line
      (if d.isPublic then some d.signature.function else none) := by
  cases hpublic : d.isPublic with
  | false =>
    have hline : d.line = 'f' :: 'n' :: ' ' :: (d.signature.text ++ " \x7b".toList) := by
      simp [RustFunction.line, hpublic, spaced]
    rw [hline]
    exact readsLine_none_of_refuses ⟨by decide +kernel, by decide +kernel⟩
  | true =>
    have hline : d.line = "pu".toList ++ "b".toList ++ [' '] ++ spaced "fn" ++ d.signature.text ++
        " \x7b".toList := by
      simp [RustFunction.line, hpublic, spaced]
    rw [hline]
    exact readsLine_of_leads (fun _ _ => rfl) (by simp) rfl (fun bound rest =>
      ((((Leads.lit "pu" _).append (Leads.lit "b" _).opt).append (.many (by decide) rfl)).append
        (leads_spaced "fn" (d.signature.head?_isBlank _))).append
        (leads_signature d.signature (fun _ hc => hc) (by decide) _)) fun m hm =>
          functionOf_eq d.signature hm

theorem oneLine_rust (d : RustFunction) : OneLine d.line := by
  refine OneLine.of_signature d.signature ?_ (by decide)
  cases d.isPublic
  · decide +kernel
  · decide +kernel

def rustText (ds : List RustFunction) (ended : Bool) : List Char :=
  declarationsText ['\x7d'] (ds.map RustFunction.line) ended

/-- **Exactly the public functions are found in `rustText`.** -/
theorem rust_functions (ds : List RustFunction) (ended : Bool) :
    Rust.functions (rustText ds ended) =
      (ds.filter RustFunction.isPublic).map fun d => d.signature.function := by
  have hclose : Rust.functionPattern.Refuses (some '\x7d') :=
    ⟨by decide +kernel, by decide +kernel⟩
  have hfound := findAll_declarationsText (anchored_of_lead rfl)
    ⟨by decide +kernel, by decide +kernel⟩ rfl readsLine_rust
    (readsLine_none_of_refuses hclose) oneLine_rust oneLine_brace ds ended
  rw [filterMap_ite] at hfound
  exact hfound

/-! ## PHP: functions without modifiers -/

def phpModifiers : List String :=
  ["public", "private", "protected", "static", "abstract", "final"]

theorem areWords_phpModifiers : AreWords phpModifiers :=
  ⟨by decide +kernel, by decide +kernel⟩

/-- A function with modifiers before it. -/
structure PhpFunction where
  modifiers : List (Modifier phpModifiers)
  signature : Signature

def PhpFunction.line (d : PhpFunction) : List Char :=
  d.modifiers.flatMap Modifier.text ++ spaced "function" ++ d.signature.text ++ " \x7b".toList

theorem readsLine_php (d : PhpFunction) : ReadsLine Php.functionPattern functionOf d.line
      (if d.modifiers.isEmpty then some d.signature.function else none) := by
  cases hmodifiers : d.modifiers with
  | cons m more =>
    have hline : d.line = m.text ++ (more.flatMap Modifier.text ++
        (spaced "function" ++ (d.signature.text ++ " \x7b".toList))) := by
      simp [PhpFunction.line, hmodifiers]
    rw [hline]
    -- a modifier does not begin with the keyword
    refine @readsLine_of_failsAt _ _ (lit "function" ++ (blanks1 ++ (opt (lit "&") ++ (blanks ++
      (group 1 (many1 isAsciiWord) ++ blanks ++ parenthesised 2))))) _ _ (fun _ _ => rfl)
      (by simp [Modifier.text, spaced]) (areWords_phpModifiers.head?_isBlank m _)
      fun rest => FailsAt.append (.lit fun hword => ?_) _
    have hapart : noneBegins ("function" :: phpModifiers) := by decide +kernel
    rw [Modifier.text, spaced, append_assoc, append_assoc] at hword
    have heq := eq_of_mem_of_begins hapart (mem_cons_of_mem _ m.mem) mem_cons_self hword
    exact absurd (heq ▸ m.mem) (by decide +kernel)
  | nil =>
    have hline : d.line = spaced "function" ++ ([] ++ []) ++ d.signature.text ++ " \x7b".toList := by
      simp [PhpFunction.line, hmodifiers]
    rw [hline]
    -- neither a reference mark nor more white space follows
    have hmark : ∀ rest, (lit "&").FailsAt ([] ++ (d.signature.text ++ rest)) := by
      intro rest
      refine .of_refuses ⟨?_, rfl⟩
      obtain ⟨c, more, hname⟩ := exists_cons_of_ne_nil d.signature.name.ne_nil
      have hword := d.signature.name.word c (by simp [hname])
      rw [nil_append, Signature.text, hname]
      show (c == '&') = false
      rw [beq_eq_false_iff_ne]
      rintro rfl
      exact absurd hword (by decide)
    have hblank : ∀ rest, ([] ++ [] ++ (d.signature.text ++ rest)).head?.any isBlank = false :=
      d.signature.head?_isBlank
    have hmarked : ∀ bound rest, (opt (lit "&") ++ blanks).Leads bound ([] ++ [])
        (d.signature.text ++ rest) [] := fun bound rest =>
      (Leads.opt_nil (hmark rest)).append (.many (by simp) (hblank rest))
    exact readsLine_of_leads (fun _ _ => rfl) (by simp [spaced]) rfl (fun bound rest =>
      ((leads_spaced "function" (hblank _)).append (hmarked bound _)).append
        (leads_signature d.signature (fun _ hc => hc) (by decide) _)) fun m hm =>
          functionOf_eq d.signature hm

theorem oneLine_php (d : PhpFunction) : OneLine d.line := by
  refine OneLine.of_signature d.signature ?_ (by decide)
  intro c hc hblank
  rw [mem_append] at hc
  rcases hc with hc | hc
  · obtain ⟨m, -, hm⟩ := mem_flatMap.mp hc
    exact areWords_phpModifiers.eq_space_of_mem m hm hblank
  · have hall : ∀ c ∈ spaced "function", isBlank c → c = ' ' := by decide +kernel
    exact hall c hc hblank

/-- Functions declared one after another, without an opening tag before them. -/
def phpText (ds : List PhpFunction) (ended : Bool) : List Char :=
  declarationsText ['\x7d'] (ds.map PhpFunction.line) ended

theorem php_body_phpText (ds : List PhpFunction) (ended : Bool) :
    Php.body (phpText ds ended) = phpText ds ended := by
  cases ds with
  | nil => cases ended <;> rfl
  | cons d ds =>
    refine Php.body_eq_self ?_
    obtain ⟨rest, hrest⟩ : ∃ rest, phpText (d :: ds) ended = d.line ++ rest := by
      refine ⟨'\n' :: linesText (['\x7d'] :: (ds.map PhpFunction.line).flatMap
        fun head => [head, ['\x7d']]) ended, ?_⟩
      simp [phpText, declarationsText, linesText, joinWith]
    have hhead : ∀ w ∈ "function" :: phpModifiers,
        Php.openingTag.takes (spaced w).head? = false := by
      decide +kernel
    refine ⟨?_, by decide +kernel⟩
    rw [hrest]
    cases hmodifiers : d.modifiers with
    | nil =>
      have hfirst : (d.line ++ rest).head? = (spaced "function").head? := by
        simp [PhpFunction.line, hmodifiers, spaced]
      rw [hfirst]
      exact hhead _ mem_cons_self
    | cons m more =>
      have hfirst : (d.line ++ rest).head? = (spaced m.word).head? := by
        have hne := (areWords_phpModifiers.word m.word m.mem).1
        simp [PhpFunction.line, hmodifiers, Modifier.text, spaced, head?_append]
      rw [hfirst]
      exact hhead _ (mem_cons_of_mem _ m.mem)

/-- **Exactly the functions without a modifier are found in `phpText`.** -/
theorem php_functions (ds : List PhpFunction) (ended : Bool) : Php.functions (phpText ds ended) =
      (ds.filter fun d => d.modifiers.isEmpty).map fun d => d.signature.function := by
  have hclose : Php.functionPattern.Refuses (some '\x7d') :=
    ⟨by decide +kernel, by decide +kernel⟩
  have hfound := findAll_declarationsText (anchored_of_lead rfl)
    ⟨by decide +kernel, by decide +kernel⟩ rfl readsLine_php
    (readsLine_none_of_refuses hclose) oneLine_php oneLine_brace ds ended
  rw [filterMap_ite] at hfound
  rw [Php.functions, php_body_phpText]
  exact hfound

/-! ## C#: functions with one modifier -/

def cSharpModifiers : List String :=
  ["public", "private", "internal", "protected", "static"]

theorem areWords_cSharpModifiers : AreWords cSharpModifiers :=
  ⟨by decide +kernel, by decide +kernel⟩

/-- A function with modifiers and a result type, which is no modifier. -/
structure CSharpFunction where
  modifiers : List (Modifier cSharpModifiers)
  result : Identifier
  signature : Signature
  result_not_mem : String.ofList result.text ∉ cSharpModifiers

def CSharpFunction.lead (d : CSharpFunction) : List Char :=
  d.modifiers.flatMap Modifier.text ++ (d.result.text ++ [' '])

def CSharpFunction.line (d : CSharpFunction) : List Char :=
  d.lead ++ d.signature.text ++ " \x7b".toList

variable {c : Char} {x : List Char} {m m' : Modifier cSharpModifiers}
  {others : List (Modifier cSharpModifiers)}

theorem isTypeChar_of_isAsciiWord (h : isAsciiWord c) : CSharp.isTypeChar c := by
  have hword : isWord c := by
    rw [isWord]
    split
    · exact h
    · rename_i hascii
      have hrange := toNat_of_isAsciiWord h
      omega
  simp [CSharp.isTypeChar, hword]

/-- A word character neither opens parentheses nor stands before them. -/
theorem refuses_parenthesised (h : isAsciiWord c) (index : Nat) :
    (blanks ++ parenthesised index).Refuses (some c) := by
  have hparen : c ≠ '(' := by
    rintro rfl
    exact absurd h (by decide)
  refine Refuses.append ?_ (Refuses.append_left (Refuses.append_left ⟨?_, rfl⟩))
  · exact isBlank_of_isAsciiWord h
  · show (c == '(') = false
    simpa using hparen

/-- What follows the modifier in `CSharp.functionPattern`. -/
def cSharpTail : Pattern :=
  blanks1 ++ many1 CSharp.isTypeChar ++ blanks1 ++ group 1 (many1 isAsciiWord) ++ blanks ++
    parenthesised 2

theorem failsAt_name {x more : List Char} {y : Char}
    (hx : ∀ c ∈ x, isAsciiWord c) (hy : isAsciiWord y) :
    (group 1 (many1 isAsciiWord) ++ (blanks ++ parenthesised 2)).FailsAt
      (x ++ ([' '] ++ y :: more)) := by
  have hparen : (parenthesised 2).FailsAt (y :: more) := by
    refine .of_refuses (Refuses.append_left (Refuses.append_left ⟨?_, rfl⟩))
    show (y == '(') = false
    rw [beq_eq_false_iff_ne]
    rintro rfl
    exact absurd hy (by decide)
  have hblank : (y :: more).head?.any isBlank = false := isBlank_of_isAsciiWord hy
  exact .within (.group .span 1) (.of_refuses fun c hc => refuses_parenthesised (hx c hc) 2) rfl
    (.within .span (.single ⟨by decide, by decide⟩) hblank hparen)

theorem head?_isBlank_of_word (hx : x ≠ [] ∧ ∀ c ∈ x, isAsciiWord c) (rest : List Char) :
    (x ++ rest).head?.any isBlank = false :=
  IsOneWord.head?_isBlank ⟨hx.1, fun c hc => isBlank_of_isAsciiWord (hx.2 c hc)⟩ rest

/-- Of three words after a modifier and before the parentheses one is too many. -/
theorem failsAt_cSharpTail {b more : List Char} {y : Char} (hb : b ≠ [] ∧ ∀ c ∈ b, isAsciiWord c)
    (hx : x ≠ [] ∧ ∀ c ∈ x, isAsciiWord c) (hy : isAsciiWord y) :
    cSharpTail.FailsAt ([' '] ++ (b ++ ([' '] ++ (x ++ ([' '] ++ y :: more))))) := by
  -- nothing that is passed can be given back: a space is in no word, and no word has white space
  have hname := FailsAt.space (b := ' ') (head?_isBlank_of_word hx _)
    (@failsAt_name x more y hx.2 hy)
  have hblanks : ∀ c ∈ b, blanks1.Refuses (some c) := fun c hc =>
    ⟨isBlank_of_isAsciiWord (hb.2 c hc), rfl⟩
  exact FailsAt.space (head?_isBlank_of_word hb _)
    (.within .span (.of_refuses fun c hc => (hblanks c hc).append_left) rfl hname)

variable (d : CSharpFunction)

/-- The words that stand before a signature begin with a word character, and so does the
signature. -/
theorem CSharpFunction.exists_head (modifiers : List (Modifier cSharpModifiers))
    (rest : List Char) :
    ∃ y more, isAsciiWord y ∧
      modifiers.flatMap Modifier.text ++ (d.result.text ++ rest) = y :: more := by
  cases modifiers with
  | nil =>
    obtain ⟨y, more, hy⟩ := exists_cons_of_ne_nil d.result.ne_nil
    exact ⟨y, more ++ rest, d.result.word y (by rw [hy]; exact mem_cons_self), by simp [hy]⟩
  | cons m modifiers =>
    obtain ⟨hne, hword⟩ := areWords_cSharpModifiers.word m.word m.mem
    obtain ⟨y, more, hy⟩ := exists_cons_of_ne_nil hne
    refine ⟨y, more ++ ([' '] ++ (modifiers.flatMap Modifier.text ++ (d.result.text ++ rest))),
      hword y (by rw [hy]; exact mem_cons_self), ?_⟩
    simp [Modifier.text, spaced, hy]

/-- With two modifiers or more there are three words at least after the first. -/
theorem CSharpFunction.words_of_modifiers (h : d.modifiers = m :: m' :: others) (rest : List Char) :
    ∃ x y more, (x ≠ [] ∧ ∀ c ∈ x, isAsciiWord c) ∧ isAsciiWord y ∧
      d.line ++ rest = m.text ++ (m'.word.toList ++ ([' '] ++ (x ++ ([' '] ++ y :: more)))) := by
  cases others with
  | nil =>
    obtain ⟨y, more, hy⟩ := exists_cons_of_ne_nil d.signature.name.ne_nil
    refine ⟨d.result.text, y,
      more ++ ('(' :: d.signature.paramText ++ [')'] ++ " \x7b".toList ++ rest), ⟨d.result.ne_nil,
      d.result.word⟩, d.signature.name.word y (by rw [hy]; exact mem_cons_self), ?_⟩
    simp [CSharpFunction.line, CSharpFunction.lead, h, Modifier.text, spaced, Signature.text, hy]
  | cons m'' others =>
    obtain ⟨y, more, hy, hmore⟩ :=
      d.exists_head others ([' '] ++ (d.signature.text ++ (" \x7b".toList ++ rest)))
    refine ⟨m''.word.toList, y, more, areWords_cSharpModifiers.word m''.word m''.mem, hy, ?_⟩
    rw [← hmore]
    simp [CSharpFunction.line, CSharpFunction.lead, h, Modifier.text, spaced]

theorem readsLine_cSharp_of_many (h : d.modifiers = m :: m' :: others) :
    ReadsLine CSharp.functionPattern functionOf d.line none := by
  have hline : d.line = m.text ++ (m'.text ++ (others.flatMap Modifier.text ++
      (d.result.text ++ [' '] ++ d.signature.text ++ " \x7b".toList))) := by
    simp [CSharpFunction.line, CSharpFunction.lead, h]
  have hblank : d.line.head?.any isBlank = false := by
    rw [hline]
    exact areWords_cSharpModifiers.head?_isBlank m _
  refine @readsLine_of_failsAt _ _ (anyOf cSharpModifiers ++ cSharpTail) _ _ (fun _ _ => rfl)
    (by simp [hline, Modifier.text, spaced]) hblank fun rest => ?_
  obtain ⟨x, y, more, hx, hy, hwords⟩ := d.words_of_modifiers h rest
  rw [hwords, Modifier.text, spaced, append_assoc]
  exact .anyOf_append areWords_cSharpModifiers.noneBegins m.mem
    (failsAt_cSharpTail (areWords_cSharpModifiers.word m'.word m'.mem) hx hy)

/-- A word that is no modifier is taken for none, even if it begins like one. -/
theorem failsAt_anyOf_of_word {words : List String} (hwords : AreWords words) (i : Identifier)
    (hi : String.ofList i.text ∉ words) {q : Pattern}
    (hq : ∀ c, isAsciiWord c → q.Refuses (some c)) (rest : List Char) :
    (anyOf words ++ q).FailsAt (i.text ++ ' ' :: rest) := by
  refine .of_ways fun bound s hrest t ht => ?_
  obtain ⟨u, hu, hafter⟩ := mem_ways_append.mp ht
  obtain ⟨w, hw, rest', hsplit, rfl⟩ := mem_ways_anyOf.mp hu
  obtain ⟨z, hname, rfl⟩ := exists_append_of_append_eq (hsplit.symm.trans hrest)
    (hwords.word w hw).2 (by decide)
  cases z with
  | nil =>
    rw [hname, append_nil, String.ofList_toList] at hi
    exact hi hw
  | cons c z =>
    -- the word goes on after the modifier
    have hrefuses := hq c (i.word c (by simp [hname]))
    exact Refuses.not_mem_ways hrefuses hafter

theorem readsLine_cSharp_of_none (h : d.modifiers = []) :
    ReadsLine CSharp.functionPattern functionOf d.line none := by
  have hline : d.line = d.result.text ++ ' ' :: (d.signature.text ++ " \x7b".toList) := by
    simp [CSharpFunction.line, CSharpFunction.lead, h]
  rw [hline]
  refine @readsLine_of_failsAt _ _ (anyOf cSharpModifiers ++ cSharpTail) _ _ (fun _ _ => rfl)
    (by simp) (d.result.head?_isBlank _) fun rest => ?_
  rw [append_assoc, cons_append]
  refine failsAt_anyOf_of_word areWords_cSharpModifiers d.result d.result_not_mem (fun c hc => ?_) _
  have hblanks : blanks1.Refuses (some c) := ⟨isBlank_of_isAsciiWord hc, rfl⟩
  exact hblanks.append_left.append_left.append_left.append_left.append_left

theorem readsLine_cSharp_of_one (h : d.modifiers = [m]) :
    ReadsLine CSharp.functionPattern functionOf d.line (some d.signature.function) := by
  have hline : d.line = m.word.toList ++ [' '] ++ d.result.text ++ [' '] ++ d.signature.text ++
      " \x7b".toList := by
    simp [CSharpFunction.line, CSharpFunction.lead, h, Modifier.text, spaced]
  have hblank := areWords_cSharpModifiers.head?_isBlank m (d.result.text ++ [' '] ++ d.signature.text)
  rw [hline]
  refine readsLine_of_leads (fun _ _ => rfl) (by simp) ?_ (fun bound rest =>
    ((((Leads.anyOf areWords_cSharpModifiers.noneBegins m.mem _).append
      (.space (d.result.head?_isBlank _))).append (.many1 d.result.ne_nil (fun c hc =>
        isTypeChar_of_isAsciiWord (d.result.word c hc)) rfl)).append
      (.space (d.signature.head?_isBlank _))).append (leads_signature d.signature (fun _ hc => hc)
        (by decide) _)) fun m hm => functionOf_eq d.signature hm
  simpa [Modifier.text, spaced] using hblank

theorem readsLine_cSharp :
    ReadsLine CSharp.functionPattern functionOf d.line
      (if d.modifiers.length == 1 then some d.signature.function else none) := by
  rcases h : d.modifiers with _ | ⟨m, _ | ⟨m', others⟩⟩
  · exact readsLine_cSharp_of_none d h
  · exact readsLine_cSharp_of_one d h
  · simpa using readsLine_cSharp_of_many d h

theorem oneLine_cSharp : OneLine d.line := by
  refine OneLine.of_signature d.signature ?_ (by decide)
  intro c hc hblank
  rw [CSharpFunction.lead, mem_append, mem_append, mem_singleton] at hc
  rcases hc with hc | hc | hc
  · obtain ⟨m, -, hm⟩ := mem_flatMap.mp hc
    exact areWords_cSharpModifiers.eq_space_of_mem m hm hblank
  · rw [d.result.isBlank_eq_false hc] at hblank
    cases hblank
  · exact hc

def cSharpText (ds : List CSharpFunction) (ended : Bool) : List Char :=
  declarationsText ['\x7d'] (ds.map CSharpFunction.line) ended

/-- **Exactly the functions with one modifier are found in `cSharpText`.** -/
theorem cSharp_functions (ds : List CSharpFunction) (ended : Bool) :
    CSharp.functions (cSharpText ds ended) =
      (ds.filter fun d => d.modifiers.length == 1).map fun d => d.signature.function := by
  have hclose : CSharp.functionPattern.Refuses (some '\x7d') :=
    ⟨by decide +kernel, by decide +kernel⟩
  have hfound := findAll_declarationsText (anchored_of_lead rfl)
    ⟨by decide +kernel, by decide +kernel⟩ rfl readsLine_cSharp
    (readsLine_none_of_refuses hclose) oneLine_cSharp oneLine_brace ds ended
  rw [filterMap_ite] at hfound
  exact hfound

end Outline

/-! ## Files -/

namespace Survey

open Outline

/-- **When all declared functions are found.** A file that holds functions one after another is
reported with exactly these functions if and only if, in Rust, each of them is public, in PHP none
has a modifier, and in C# each has exactly one. -/
theorem functions_found_iff (w : Workspace) (path : String) (ended : Bool) :
    (∀ ds : List RustFunction,
      w.readFile path = .ok ((rustText ds ended).flatMap String.utf8EncodeChar) →
        ∃ o : Rust.Outline,
          inLanguage w path .rust = .ok ⟨path, some Language.rust.name, .rust o⟩ ∧
            (o.functions = (ds.map fun d => d.signature.function) ↔
              ∀ d ∈ ds, d.isPublic = true)) ∧
    (∀ ds : List PhpFunction,
      w.readFile path = .ok ((phpText ds ended).flatMap String.utf8EncodeChar) →
        ∃ o : Php.Outline,
          inLanguage w path .php = .ok ⟨path, some Language.php.name, .php o⟩ ∧
            (o.functions = (ds.map fun d => d.signature.function) ↔
              ∀ d ∈ ds, d.modifiers = [])) ∧
    (∀ ds : List CSharpFunction,
      w.readFile path = .ok ((cSharpText ds ended).flatMap String.utf8EncodeChar) →
        ∃ o : CSharp.Outline,
          inLanguage w path .cSharp = .ok ⟨path, some Language.cSharp.name, .cSharp o⟩ ∧
            (o.functions = (ds.map fun d => d.signature.function) ↔
              ∀ d ∈ ds, d.modifiers.length = 1)) := by
  have hreturn : ∀ {α : Type} {line : α → List Char}, (∀ d, OneLine (line d)) →
      ∀ ds : List α, '\r' ∉ declarationsText ['\x7d'] (ds.map line) ended := by
    intro α line hline ds
    refine return_not_mem_declarationsText oneLine_brace (fun head hhead => ?_) ended
    obtain ⟨d, -, rfl⟩ := mem_map.mp hhead
    exact hline d
  refine ⟨fun ds hread => ?_, fun ds hread => ?_, fun ds hread => ?_⟩
  · refine ⟨_, plain_of_encode .rust _ hread (hreturn oneLine_rust ds), ?_⟩
    show Rust.functions _ = _ ↔ _
    rw [rust_functions, map_filter_eq_map_iff]
  · refine ⟨_, plain_of_encode .php _ hread (hreturn oneLine_php ds), ?_⟩
    show Php.functions _ = _ ↔ _
    rw [php_functions, map_filter_eq_map_iff]
    simp only [List.isEmpty_iff]
  · refine ⟨_, plain_of_encode .cSharp _ hread (hreturn oneLine_cSharp ds), ?_⟩
    show CSharp.functions _ = _ ↔ _
    rw [cSharp_functions, map_filter_eq_map_iff]
    simp only [beq_iff_eq]

/-- A name without parameters. -/
def bareSignature : Signature :=
  ⟨.f, []⟩

def modified (modifiers : List (Modifier cSharpModifiers)) : CSharpFunction :=
  ⟨modifiers, ⟨['T'], by decide, by decide⟩, bareSignature, by decide +kernel⟩

/-- A static function is found, and one that is public and static is missed. -/
theorem functions_found_iff_static :
    (∃ o : CSharp.Outline, inLanguage (oneFile ("static T f() \x7b\n\x7d\n".toList.flatMap
        String.utf8EncodeChar)) "a.rb" .cSharp = .ok ⟨"a.rb", some "csharp", .cSharp o⟩ ∧
          o.functions = [⟨"f", []⟩]) ∧
      ∃ o : CSharp.Outline, inLanguage (oneFile ("public static T f() \x7b\n\x7d\n".toList.flatMap
        String.utf8EncodeChar)) "a.rb" .cSharp = .ok ⟨"a.rb", some "csharp", .cSharp o⟩ ∧
          o.functions ≠ [⟨"f", []⟩] := by
  let one : CSharpFunction := modified [⟨"static", by decide⟩]
  let two : CSharpFunction := modified [⟨"public", by decide⟩, ⟨"static", by decide⟩]
  have hone : cSharpText [one] true = "static T f() \x7b\n\x7d\n".toList := by decide +kernel
  have htwo : cSharpText [two] true = "public static T f() \x7b\n\x7d\n".toList := by
    decide +kernel
  obtain ⟨o, hreport, hiff⟩ := (functions_found_iff (oneFile ((cSharpText [one] true).flatMap
    String.utf8EncodeChar)) "a.rb" true).2.2 [one] (readFile_oneFile _)
  obtain ⟨o', hreport', hiff'⟩ := (functions_found_iff (oneFile ((cSharpText [two] true).flatMap
    String.utf8EncodeChar)) "a.rb" true).2.2 [two] (readFile_oneFile _)
  rw [hone] at hreport
  rw [htwo] at hreport'
  refine ⟨⟨o, hreport, hiff.mpr (by simp [one, modified])⟩, o', hreport', fun hfound => ?_⟩
  exact absurd (hiff'.mp hfound two (by simp)) (by simp [two, modified])

end Survey

end CodeAtlas
