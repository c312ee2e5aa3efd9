import Mathlib.Data.List.Perm.Basic
import CodeAtlas.Outline.Go
import CodeAtlas.Proofs.Words

/-!
# Imports of a Go file

Three searches look for imports: for a path behind the keyword, for a list in parentheses and for a
path behind a word. Each goes through the whole file, so it also meets what is meant for the others.
What one search makes of a path, with or without a word before it, is the same wherever the path
stands (`Scans`), so each search gives what the paths of the source give in order
(`Scans.source`), and a path is found once exactly if one search alone meets it
(`imports_once_iff`).
-/

open List

namespace CodeAtlas.Go

open Pattern Text

variable {gap : List Char}

/-! ## Import declarations as written -/

/-- White space or a semicolon. -/
def separates (c : Char) : Bool :=
  isBlank c || c == ';'

/-- What a path is made of: no quotation marks, white space and parentheses. -/
def inPath (c : Char) : Bool :=
  !isBlank c && notAmong "'\"()" c

/-- Any number of characters of a class. -/
structure Filling (accepts : Char → Bool) where
  text : List Char
  all : ∀ c ∈ text, accepts c = true

/-- White space as separators. -/
def separating (gap : Run isBlank) : Run separates :=
  ⟨gap.text, gap.ne_nil, fun c hc => by simp [separates, gap.all c hc]⟩

/-- A path, perhaps with an alias and white space before it. -/
structure Spec where
  alias? : Option (Run isWord × Run isBlank)
  path : Run inPath

def quote (path : Run inPath) : List Char :=
  '"' :: (path.text ++ ['"'])

def Spec.text (spec : Spec) : List Char :=
  (spec.alias?.elim [] fun a => a.1.text ++ a.2.text) ++ quote spec.path

/-- An import declaration, with what stands behind it up to the next. -/
inductive Declaration where
  | single (gap : Run isBlank) (spec : Spec) (after : Filling separates)
  | group (gap : Filling isBlank) (before : Filling separates)
      (specs : List (Spec × Filling separates)) (after : Filling separates)

def body (before : Filling separates) (specs : List (Spec × Filling separates)) : List Char :=
  before.text ++ specs.flatMap fun s => s.1.text ++ s.2.text

def Declaration.text : Declaration → List Char
  | .single gap spec after => "import".toList ++ gap.text ++ spec.text ++ after.text
  | .group gap before specs after =>
    "import".toList ++ (gap.text ++ "(".toList) ++ body before specs ++ ")".toList ++ after.text

/-- A package clause and import declarations. -/
structure ImportSource where
  before : Filling separates
  gap : Run isBlank
  package : Run isWord
  after : Run separates
  declarations : List Declaration

def ImportSource.text (source : ImportSource) : List Char :=
  source.before.text ++ ("package".toList ++ source.gap.text) ++
    (source.package.text ++ source.after.text) ++ source.declarations.flatMap Declaration.text

def keyword : Run isWord :=
  ⟨"import".toList, by decide, by decide⟩

/-- A path that is imported, in parentheses or not. -/
structure Use where
  grouped : Bool
  spec : Spec

def Declaration.uses : Declaration → List Use
  | .single _ spec _ => [⟨false, spec⟩]
  | .group _ _ specs _ => specs.map fun s => ⟨true, s.1⟩

def ImportSource.uses (source : ImportSource) : List Use :=
  source.declarations.flatMap Declaration.uses

/-- The word before a path: its alias, or else the keyword of a declaration without parentheses. -/
def Use.word? (u : Use) : Option (Run isWord) :=
  (u.spec.alias?.map Prod.fst).or (if u.grouped then none else some keyword)

variable {β : Type} {p : Pattern} {meaning : Match → β} {plain : Run inPath → List β}
variable {called : Run isWord → Run inPath → List β} {index : Nat} {tail : List Char}

/-! ## What a search makes of paths -/

/-- A character that neither belongs to a word nor begins a quoted path. -/
def divides (c : Char) : Bool :=
  !isWord c && notAmong "'\"" c

variable {c : Char} {u : Use}

theorem divides_of_separates (h : separates c) : divides c := by
  have hword : isWord c = false := by
    rw [← Bool.not_eq_true]
    intro hword
    have hsemicolon : c = ';' := by simpa [separates, isBlank_of_isWord hword] using h
    rw [hsemicolon] at hword
    exact absurd hword (by decide)
  rw [divides, hword, notAmong_of_accepts h (by decide)]
  rfl

theorem divides_of_isBlank (h : isBlank c) : divides c :=
  divides_of_separates (by simp [separates, h])

theorem divides_gap (gap : Run isBlank) : ∀ c ∈ gap.text, divides c :=
  fun c hc => divides_of_isBlank (gap.all c hc)

theorem head?_of_divides (hne : gap ≠ []) (h : ∀ c ∈ gap, divides c) (rest : List Char) :
    (gap ++ rest).head?.any isWord = false := by
  obtain ⟨c, gap, rfl⟩ := exists_cons_of_ne_nil hne
  have hc := h c mem_cons_self
  rw [divides, Bool.and_eq_true, Bool.not_eq_true'] at hc
  exact hc.1

/-- What a search makes of paths with and without a word before them. -/
structure Scans (p : Pattern) (meaning : Match → β) (plain : Run inPath → List β)
    (called : Run isWord → Run inPath → List β) : Prop where
  skips : ∀ {gap tail : List Char}, (∀ c ∈ gap, divides c = true) → Passes p gap tail
  word : ∀ (w : Run isWord) (after : Run separates) (tail : List Char),
    (∀ c, tail.head? = some c → isWord c = true) → Passes p (w.text ++ after.text) tail
  quote : ∀ path tail, Reads p meaning (quote path) (plain path) tail
  called : ∀ (w : Run isWord) (gap : Run isBlank) path tail,
    Reads p meaning (w.text ++ gap.text ++ Go.quote path) (called w path) tail

theorem refuses_quoted (h : notAmong "'\"" c) (index : Nat) : (quoted index).Refuses (some c) := by
  have hc : among "'\"" c = false := by simpa [among, notAmong] using h
  exact Refuses.append_left (Refuses.append_left ⟨hc, rfl⟩)

theorem notAmong_of_isWord (h : isWord c) : notAmong "'\"(" c :=
  notAmong_of_accepts h (by decide +kernel)

theorem leads_quote {bound : Nat} (path : Run inPath) (index : Nat) :
    (quoted index).Leads bound (quote path) tail [(index, path.text)] := by
  have hpath : ∀ c ∈ path.text, notAmong "'\"" c :=
    fun c hc => notAmong_of_accepts (path.all c hc) (by decide)
  have hlead : (quoted index).Leads bound (['"'] ++ path.text ++ ['"']) tail [(index, path.text)] :=
    ((Leads.one (by decide) _).append ((Leads.many1 path.ne_nil hpath rfl).group index)).append
      (.one (by decide) tail)
  exact hlead

/-! ### Words -/

/-- A pattern takes a word, or a part of one. -/
structure TakesWord (b : Pattern) : Prop where
  refuses : ∀ c, isWord c = false → b.Refuses (some c)
  passes : ∀ {q : Pattern} {gap rest : List Char}, (∀ c ∈ gap, q.Refuses (some c)) →
    rest.head?.any isWord = false → q.FailsAt rest → Passes (b ++ q) gap rest

/-- A pattern goes on with white space, and then neither with a word nor with a separator. -/
structure GoesOn (q : Pattern) : Prop where
  refuses : ∀ c, isBlank c = false → c ≠ '(' → q.Refuses (some c)
  fails : ∀ {gap rest : List Char}, (∀ c ∈ gap, separates c = true) →
    rest.head?.any isBlank = false → (∀ c, rest.head? = some c → notAmong "'\"(" c = true) →
    q.FailsAt (gap ++ rest)

theorem GoesOn.refuses_word {q : Pattern} (hq : GoesOn q) (w : Run isWord) :
    ∀ c ∈ w.text, q.Refuses (some c) := by
  intro c hc
  refine hq.refuses c (isBlank_of_isWord (w.all c hc)) ?_
  rintro rfl
  exact absurd (w.all _ hc) (by decide)

theorem isWord_import : ∀ d ∈ "import".toList, isWord d := by
  decide +kernel

theorem takesWord_import : TakesWord (lit "import") := by
  constructor
  · intro c hc
    refine ⟨?_, rfl⟩
    show (c == 'i' || false) = false
    rw [Bool.or_false, beq_eq_false_iff_ne]
    rintro rfl
    exact absurd hc (by decide)
  · intro q gap rest hgap hrest h
    refine .lit_word (.of_refuses hgap) (fun c hc hmem => ?_) fun _ => h
    rw [hc, Option.any_some, isWord_import c hmem] at hrest
    cases hrest

theorem takesWord_group (index : Nat) : TakesWord (group index (many1 isWord)) :=
  ⟨fun _ hc => ⟨hc, rfl⟩, fun hgap hrest h =>
    .within (.group .span index) (.of_refuses hgap) hrest h⟩

/-- Behind white space comes something that begins a path or a list. -/
theorem failsAt_gap {white r : Pattern} {rest : List Char} (hwhite : white.Within isBlank)
    (hr : ∀ o : Option Char, (∀ c, o = some c → notAmong "'\"(" c) → r.Refuses o)
    (hgap : ∀ c ∈ gap, separates c) (hstop : rest.head?.any isBlank = false)
    (hrest : ∀ c, rest.head? = some c → notAmong "'\"(" c) :
    (white ++ r).FailsAt (gap ++ rest) := by
  refine .within hwhite (.of_refuses fun c hc => hr (some c) ?_) hstop (.of_refuses (hr _ hrest))
  rintro _ ⟨⟩
  exact notAmong_of_accepts (hgap c hc) (by decide)

theorem goesOn_quoted (index : Nat) : GoesOn (blanks1 ++ quoted index) := by
  refine ⟨fun c hc _ => Refuses.append_left ⟨hc, rfl⟩, failsAt_gap .span fun o ho => ?_⟩
  cases o with
  | none => exact ⟨rfl, rfl⟩
  | some c => exact refuses_quoted (notAmong_of_accepts (ho c rfl) (by decide)) index

theorem refuses_parenthesis {o : Option Char} (h : o ≠ some '(') : (lit "(").Refuses o := by
  refine ⟨?_, rfl⟩
  cases o with
  | none => rfl
  | some c => simpa [lit, ofChars, char, takes] using h

theorem goesOn_list : GoesOn (blanks ++ lit "(") := by
  constructor
  · intro c hc hne
    exact Refuses.append hc (refuses_parenthesis (by simpa using hne))
  · refine failsAt_gap .span fun o ho => refuses_parenthesis ?_
    rintro rfl
    exact absurd (ho '(' rfl) (by decide)

section Words

variable {b q : Pattern} (hb : TakesWord b) (hq : GoesOn q)

include hb

theorem TakesWord.skips (hgap : ∀ c ∈ gap, divides c) : Passes b gap tail := by
  refine .of_refuses fun c hc => ?_
  have hdivides := hgap c hc
  rw [divides, Bool.and_eq_true, Bool.not_eq_true'] at hdivides
  exact hb.refuses c hdivides.1

include hq

theorem passes_word (w : Run isWord) (after : Run separates)
    (htail : ∀ c, tail.head? = some c → isWord c) :
    Passes (b ++ q) (w.text ++ after.text) tail := by
  have hafter : ∀ c ∈ after.text, divides c :=
    fun c hc => divides_of_separates (after.all c hc)
  refine .append (hb.passes (hq.refuses_word w) (head?_of_divides after.ne_nil hafter tail)
    (hq.fails after.all ?_ fun c hc => ?_)) ((hb.skips hafter).extend q)
  · cases tail with
    | nil => rfl
    | cons c tail => exact isBlank_of_isWord (htail c rfl)
  · exact notAmong_of_isWord (htail c hc)

theorem passes_quote (path : Run inPath) (tail : List Char) : Passes (b ++ q) (quote path) tail := by
  have hmark : ∀ rest, Passes (b ++ q) ['"'] rest := by
    intro rest
    refine .of_refuses fun c hc => ?_
    rw [mem_singleton.mp hc]
    exact (hb.refuses '"' (by decide)).append_left
  have hpath : ∀ c ∈ path.text, q.Refuses (some c) := by
    intro c hc
    have hin := path.all c hc
    rw [inPath, Bool.and_eq_true, Bool.not_eq_true'] at hin
    refine hq.refuses c hin.1 ?_
    rintro rfl
    exact absurd hin.2 (by decide)
  have hend : q.FailsAt ('"' :: tail) := .of_refuses (hq.refuses '"' (by decide) (by decide))
  have hstop : isWord '"' = false := by decide
  have hinner : Passes (b ++ q) path.text ('"' :: tail) := hb.passes hpath hstop hend
  exact (hmark (path.text ++ ['"'] ++ tail)).append (hinner.append (hmark tail))

end Words

/-! ### The four patterns -/

theorem scans_quoted : Scans (quoted 1) (·.group 1) (fun path => [path.text])
    fun _ path => [path.text] := by
  have hquote : ∀ path tail, Reads (quoted 1) (·.group 1) (quote path) [path.text] tail := by
    intro path tail
    refine .of_leads (by simp [quote]) (fun _ => leads_quote path 1) fun m hgroups => ?_
    rw [Match.group, hgroups]
    rfl
  have hskips : ∀ {gap tail : List Char}, (∀ c ∈ gap, divides c) →
      Passes (quoted 1) gap tail := by
    intro gap tail hgap
    refine .of_refuses fun c hc => ?_
    have hdivides := hgap c hc
    rw [divides, Bool.and_eq_true] at hdivides
    exact refuses_quoted hdivides.2 1
  have hword : ∀ (w : Run isWord) rest, Passes (quoted 1) w.text rest := by
    intro w rest
    refine .of_refuses fun c hc => refuses_quoted ?_ 1
    exact notAmong_of_accepts (notAmong_of_isWord (w.all c hc)) (by decide)
  refine ⟨hskips, fun w after tail _ => ?_, hquote, fun w gap path tail => ?_⟩
  · exact (hword w _).append (hskips fun c hc => divides_of_separates (after.all c hc))
  · refine .append (.of_passes ((hword w _).append ?_)) (hquote path tail)
    exact hskips (divides_gap gap)

/-- A pattern for a quoted path that `TakesWord` before it `Scans`. -/
theorem TakesWord.scans {b : Pattern} (hb : TakesWord b) (index : Nat)
    (h : ∀ (w : Run isWord) (gap : Run isBlank) path tail, Reads (b ++ blanks1 ++ quoted index)
      meaning (w.text ++ gap.text ++ quote path) (called w path) tail) :
    Scans (b ++ blanks1 ++ quoted index) meaning (fun _ => []) called where
  skips hgap := ((hb.skips hgap).extend _).extend _
  word w after _ htail := (passes_word hb (goesOn_quoted index) w after htail).assoc
  quote path tail := .of_passes (passes_quote hb (goesOn_quoted index) path tail).assoc
  called := h

/-- The keyword does not go on in the white space behind it. -/
theorem head?_gap_not_mem (gap : Run isBlank) (rest : List Char) :
    ∀ c, (gap.text ++ rest).head? = some c → c ∉ "import".toList := by
  intro c hc hmem
  have hhead := head?_of_divides gap.ne_nil (divides_gap gap) rest
  rw [hc, Option.any_some, isWord_import c hmem] at hhead
  cases hhead

/-- `singlePattern` finds the path behind a word that ends in the keyword. -/
theorem reads_afterKeyword {w : Run isWord} (hword : keyword.text <:+ w.text) (gap : Run isBlank)
    (path : Run inPath) (tail : List Char) : Reads singlePattern (·.group 1)
      (w.text ++ gap.text ++ quote path) [path.text] tail := by
  obtain ⟨front, hfront⟩ := hword
  have hpasses : Passes (lit "import" ++ (blanks1 ++ quoted 1)) front
      ("import".toList ++ (gap.text ++ (quote path ++ tail))) := by
    intro left hleft hne
    rw [← append_assoc]
    refine .lit_word (.of_refuses fun c hc => (goesOn_quoted 1).refuses_word w c ?_)
      (head?_gap_not_mem gap _) fun h => absurd h (by simpa using hne)
    rw [← hfront]
    exact mem_append.mpr ((mem_append.mp hc).imp_left fun h => hleft.subset h)
  have hlead : ∀ bound, singlePattern.Leads bound ("import".toList ++ gap.text ++ quote path) tail
      [(1, path.text)] := fun bound =>
    ((Leads.lit "import" _).append (.many1 gap.ne_nil gap.all rfl)).append (leads_quote path 1)
  have hreads : Reads singlePattern (·.group 1)
      (front ++ ("import".toList ++ gap.text ++ quote path)) [path.text] tail := by
    rw [← append_assoc, ← append_assoc] at hpasses
    refine .append (.of_passes hpasses.assoc) (.of_leads (by simp) hlead fun m hgroups => ?_)
    rw [Match.group, hgroups]
    rfl
  rw [← hfront]
  simpa [keyword] using hreads

theorem scans_single : Scans singlePattern (·.group 1) (fun _ => []) fun w path =>
    if keyword.text <:+ w.text then [path.text] else [] := by
  have hb := takesWord_import
  have hq := goesOn_quoted 1
  refine hb.scans 1 fun w gap path tail => ?_
  split
  · rename_i hword
    exact reads_afterKeyword hword gap path tail
  · rename_i hword
    have hpasses : Passes (lit "import" ++ (blanks1 ++ quoted 1)) w.text
        (gap.text ++ (quote path ++ tail)) :=
      .lit_word (.of_refuses (hq.refuses_word w)) (head?_gap_not_mem gap _) fun h => absurd h hword
    have hgap : Passes singlePattern gap.text (quote path ++ tail) :=
      ((hb.skips (divides_gap gap)).extend _).extend _
    exact .of_passes ((hpasses.assoc.append hgap).append (passes_quote hb hq path tail).assoc)

theorem scans_alias : Scans aliasPattern (fun m => (m.group 1, m.group 2)) (fun _ => [])
    fun w path => [(w.text, path.text)] := by
  refine (takesWord_group 1).scans 2 fun w gap path tail => ?_
  have hlead : ∀ bound, aliasPattern.Leads bound (w.text ++ gap.text ++ quote path) tail
      [(2, path.text), (1, w.text)] := fun bound =>
    (((Leads.many1 w.ne_nil w.all (head?_of_divides gap.ne_nil (divides_gap gap) _)).group 1).append
      (.many1 gap.ne_nil gap.all rfl)).append (leads_quote path 2)
  refine .of_leads (by simp [w.ne_nil]) hlead fun m hgroups => ?_
  rw [Match.group, Match.group, hgroups, hgroups]
  rfl

theorem skips_list (hgap : ∀ c ∈ gap, divides c) : Passes groupPattern gap tail :=
  ((((takesWord_import.skips hgap).extend _).extend _).extend _).extend _

def listed (m : Match) : List (List Char) :=
  (quoted 1).collect 1 (m.group 1)

theorem scans_group : Scans groupPattern listed (fun _ => []) fun _ _ => [] := by
  have hb := takesWord_import
  have hquote : ∀ path tail, Passes groupPattern (quote path) tail :=
    fun path tail => ((passes_quote hb goesOn_list path tail).assoc.extend _).extend _
  refine ⟨skips_list, fun w after tail htail =>
    ((passes_word hb goesOn_list w after htail).assoc.extend _).extend _,
    fun path tail => .of_passes (hquote path tail), fun w gap path tail => .of_passes ?_⟩
  have hopening : (blanks ++ lit "(").FailsAt (gap.text ++ (quote path ++ tail)) := by
    refine .within .span (.of_refuses fun c hc => refuses_parenthesis ?_) rfl
      (.of_refuses ⟨rfl, rfl⟩)
    rintro ⟨⟩
    exact absurd (gap.all _ hc) (by decide)
  have hword : Passes (lit "import" ++ (blanks ++ lit "(")) w.text
      (gap.text ++ (quote path ++ tail)) :=
    hb.passes (goesOn_list.refuses_word w) (head?_of_divides gap.ne_nil (divides_gap gap) _)
      hopening
  exact (((hword.assoc.extend _).extend _).append (skips_list (divides_gap gap))).append
    (hquote path tail)

/-! ## Reading a file -/

def Use.reads (plain : Run inPath → List β) (called : Run isWord → Run inPath → List β) (u : Use) :
    List β :=
  u.word?.elim (plain u.spec.path) (called · u.spec.path)

namespace Scans

variable (h : Scans p meaning plain called)

include h

theorem separators (after : Filling separates) : Passes p after.text tail :=
  h.skips fun c hc => divides_of_separates (after.all c hc)

theorem spec (spec : Spec) (tail : List Char) :
    Reads p meaning spec.text (Use.reads plain called ⟨true, spec⟩) tail := by
  obtain ⟨_ | ⟨name, gap⟩, path⟩ := spec
  · exact h.quote path tail
  · exact h.called name gap path tail

theorem single (gap : Run isBlank) (spec : Spec) (tail : List Char) :
    Reads p meaning ("import".toList ++ gap.text ++ spec.text)
      (Use.reads plain called ⟨false, spec⟩) tail := by
  obtain ⟨_ | ⟨name, gap'⟩, path⟩ := spec
  · exact h.called keyword gap path tail
  · refine .append (.of_passes (h.word keyword (separating gap) _ fun c hc => ?_))
      (h.called name gap' path tail)
    rw [Spec.text, Option.elim_some, append_assoc, append_assoc] at hc
    exact name.of_head? hc

theorem body (before : Filling separates) (specs : List (Spec × Filling separates))
    (tail : List Char) : Reads p meaning (body before specs)
      (specs.flatMap fun s => Use.reads plain called ⟨true, s.1⟩) tail := by
  refine .append (.of_passes (h.separators before)) (.flatMap fun _ s back _ => ?_)
  exact (h.spec s.1 _).append_passes (h.separators s.2)

theorem source (source : ImportSource) {outs : List β}
    (houts : Reads p meaning (source.declarations.flatMap Declaration.text) outs []) :
    Reads p meaning source.text outs [] := by
  have hdeclarations : ∀ c,
      (source.declarations.flatMap Declaration.text ++ []).head? = some c → isWord c := by
    cases source.declarations with
    | nil => simp
    | cons d ds =>
      intro c hc
      obtain rfl : 'i' = c := by cases d <;> exact Option.some.inj hc
      decide
  have hkeyword : ∀ c ∈ "package".toList, isWord c := by decide +kernel
  have hpackage : ∀ rest, Passes p ("package".toList ++ source.gap.text)
      (source.package.text ++ source.after.text ++ rest) := by
    intro rest
    refine h.word ⟨"package".toList, by decide, hkeyword⟩ (separating source.gap) _ fun c hc => ?_
    rw [append_assoc] at hc
    exact source.package.of_head? hc
  exact .append (.of_passes (((h.separators source.before).append (hpackage _)).append
    (h.word source.package source.after _ hdeclarations))) houts

theorem declarations (hopening : ∀ (gap : Filling isBlank) (tail : List Char),
      Passes p ("import".toList ++ (gap.text ++ "(".toList)) tail)
    (ds : List Declaration) : Reads p meaning (ds.flatMap Declaration.text)
      ((ds.flatMap Declaration.uses).flatMap (Use.reads plain called)) [] := by
  rw [flatMap_assoc]
  refine .flatMap fun _ d back _ => ?_
  cases d with
  | single gap spec after =>
    rw [Declaration.uses, flatMap_singleton]
    exact (h.single gap spec _).append_passes (h.separators after)
  | group gap before specs after =>
    have hclosing : ∀ tail, Passes p ")".toList tail := fun _ => h.skips (by decide)
    rw [Declaration.uses, flatMap_map]
    exact (((Reads.of_passes (hopening gap _)).append (h.body before specs _)).append_passes
      (hclosing _)).append_passes (h.separators after)

end Scans

/-! ## Lists -/

theorem divides_opening (gap : Filling isBlank) : ∀ c ∈ gap.text ++ "(".toList, divides c := by
  intro c hc
  rcases mem_append.mp hc with hc | hc
  · exact divides_of_isBlank (gap.all c hc)
  · rw [mem_singleton.mp hc]
    decide

theorem head?_opening (gap : Filling isBlank) (rest : List Char) :
    (gap.text ++ '(' :: rest).head?.any isWord = false := by
  rw [append_cons]
  exact head?_of_divides (by simp) (divides_opening gap) rest

theorem passes_opening {b : Pattern} (hb : TakesWord b) (index : Nat) (gap : Filling isBlank)
    (tail : List Char) :
    Passes (b ++ (blanks1 ++ quoted index)) ("import".toList ++ (gap.text ++ "(".toList)) tail := by
  have hfails : (blanks1 ++ quoted index).FailsAt (gap.text ++ '(' :: tail) := by
    refine .within .span (.of_refuses fun c hc => refuses_quoted ?_ index) rfl
      (.of_refuses ⟨rfl, rfl⟩)
    exact notAmong_of_accepts (gap.all c hc) (by decide)
  have hword : Passes (b ++ (blanks1 ++ quoted index)) "import".toList (gap.text ++ '(' :: tail) :=
    hb.passes ((goesOn_quoted index).refuses_word keyword) (head?_opening gap tail) hfails
  have hgap : Passes b (gap.text ++ "(".toList) tail := hb.skips (divides_opening gap)
  refine .append ?_ (hgap.extend _)
  rw [append_assoc]
  exact hword

/-- No path, alias or separator closes a list. -/
theorem notAmong_of_mem_body {before : Filling separates}
    {specs : List (Spec × Filling separates)} (h : c ∈ body before specs) : notAmong ")" c := by
  have hseparator : ∀ f : Filling separates, c ∈ f.text → notAmong ")" c :=
    fun f hc => notAmong_of_accepts (f.all c hc) (by decide)
  rw [body, mem_append, mem_flatMap] at h
  obtain h | ⟨⟨⟨alias?, path⟩, after⟩, -, h⟩ := h
  · exact hseparator before h
  · have hquote : c ∈ quote path → notAmong ")" c := by
      intro hc
      simp only [quote, mem_cons, mem_append, not_mem_nil, or_false] at hc
      rcases hc with rfl | hc | rfl
      · decide
      · exact notAmong_of_accepts (path.all c hc) (by decide)
      · decide
    rcases mem_append.mp h with h | h
    · rcases alias? with _ | ⟨name, gap⟩
      · exact hquote h
      · rcases mem_append.mp h with h | h
        · rcases mem_append.mp h with h | h
          · exact notAmong_of_accepts (name.all c h) (by decide +kernel)
          · exact notAmong_of_accepts (gap.all c h) (by decide)
        · exact hquote h
    · exact hseparator after h

/-- `groupPattern` finds a list with what stands in its parentheses, unless there is nothing. -/
theorem reads_list (gap : Filling isBlank) (before : Filling separates)
    (specs : List (Spec × Filling separates)) (tail : List Char) : Reads groupPattern listed
      ("import".toList ++ (gap.text ++ "(".toList) ++ body before specs ++ ")".toList)
      (if body before specs = [] then [] else [specs.map fun s => s.1.path.text]) tail := by
  split
  · rename_i hbody
    rw [hbody, append_nil]
    have hempty : (lit "(" ++ (group 1 (many1 (notAmong ")")) ++ lit ")")).FailsAt
        ("(".toList ++ (')' :: tail)) :=
      .lit_append (.of_refuses ⟨rfl, rfl⟩)
    have hrefuses : ∀ c, c ≠ '(' →
        (lit "(" ++ (group 1 (many1 (notAmong ")")) ++ lit ")")).Refuses (some c) :=
      fun c hc => Refuses.append_left (refuses_parenthesis (by simpa using hc))
    have hfails : (blanks ++ (lit "(" ++ (group 1 (many1 (notAmong ")")) ++ lit ")"))).FailsAt
        (gap.text ++ '(' :: ')' :: tail) := by
      refine .within .span (.of_refuses fun c hc => hrefuses c ?_) rfl hempty
      rintro rfl
      exact absurd (gap.all _ hc) (by decide)
    have hword : ∀ c ∈ "import".toList,
        (blanks ++ (lit "(" ++ (group 1 (many1 (notAmong ")")) ++ lit ")"))).Refuses (some c) := by
      intro c hc
      refine Refuses.append (isBlank_of_isWord (isWord_import c hc)) (hrefuses c ?_)
      rintro rfl
      exact absurd hc (by decide)
    have hpasses := takesWord_import.passes hword (head?_opening gap _) hfails
    refine .of_passes (.append (.append ?_ (skips_list (divides_opening gap)))
      (skips_list (by decide)))
    rw [append_assoc]
    exact hpasses.assoc.assoc.assoc
  · rename_i hbody
    have hlead : ∀ bound, groupPattern.Leads bound
        ("import".toList ++ gap.text ++ "(".toList ++ body before specs ++ ")".toList) tail
        [(1, body before specs)] := fun bound =>
      ((((Leads.lit "import" _).append (.many gap.all rfl)).append (.lit "(" _)).append
        ((Leads.many1 hbody (fun c hc => notAmong_of_mem_body hc) rfl).group 1)).append
        (.lit ")" tail)
    rw [← append_assoc "import".toList]
    refine .of_leads (by simp) hlead fun m hgroups => ?_
    have hpaths := (scans_quoted.body before specs []).findAll ⟨rfl, rfl⟩
    rw [listed, Match.group, hgroups]
    refine hpaths.trans ?_
    rw [map_eq_flatMap]
    refine congrArg specs.flatMap (funext fun s => ?_)
    rw [Use.reads]
    cases Use.word? ⟨true, s.1⟩ <;> rfl

def Declaration.lists : Declaration → List (List (List Char))
  | .single _ _ _ => []
  | .group _ before specs _ =>
    if body before specs = [] then [] else [specs.map fun s => s.1.path.text]

theorem reads_lists (ds : List Declaration) : Reads groupPattern listed
      (ds.flatMap Declaration.text) (ds.flatMap Declaration.lists) [] := by
  refine .flatMap fun _ d back _ => ?_
  cases d with
  | single gap spec after =>
    have hsingle : ∀ tail, Reads groupPattern listed ("import".toList ++ gap.text ++ spec.text) []
        tail := by
      intro tail
      have hsingle := scans_group.single gap spec tail
      rw [Use.reads] at hsingle
      cases hword : Use.word? ⟨false, spec⟩ <;> rwa [hword] at hsingle
    exact (hsingle _).append_passes (scans_group.separators after)
  | group gap before specs after =>
    exact (reads_list gap before specs _).append_passes (scans_group.separators after)

theorem flatten_lists (d : Declaration) :
    d.lists.flatten = (d.uses.filter Use.grouped).map (·.spec.path.text) := by
  cases d with
  | single gap spec after => rfl
  | group gap before specs after =>
    have hgrouped : (specs.map fun s => (⟨true, s.1⟩ : Use)).filter Use.grouped =
        specs.map fun s => ⟨true, s.1⟩ :=
      filter_eq_self.mpr (forall_mem_map.mpr fun _ _ => rfl)
    rw [Declaration.lists, Declaration.uses, hgrouped, map_map]
    split
    · rename_i hbody
      have hspecs : specs = [] := by
        rw [body, append_eq_nil_iff, flatMap_eq_nil_iff] at hbody
        refine eq_nil_iff_forall_not_mem.mpr fun s hs => ?_
        have hs := hbody.2 s hs
        simp [Spec.text, quote] at hs
      rw [hspecs]
      rfl
    · simp

/-! ## What is reported -/

/-- The word before a path ends in the keyword. -/
def Use.afterKeyword (u : Use) : Bool :=
  u.word?.any fun w => keyword.text <:+ w.text

def Use.found (u : Use) (form : ImportForm) : Import :=
  ⟨String.ofList u.spec.path.text, form⟩

/-- A path reported with the word before it, if there is one. -/
def Use.aliased? (u : Use) : Option Import :=
  u.word?.map fun w => u.found (.aliased (String.ofList w.text))

variable (source : ImportSource)

theorem single_imports :
    (singlePattern.collect 1 source.text).map (fun m => ⟨String.ofList m, .single⟩) =
      (source.uses.filter Use.afterKeyword).map (·.found .single) := by
  have hfound := (scans_single.source source (scans_single.declarations
    (fun gap tail => (passes_opening takesWord_import 1 gap tail).assoc) _)).findAll ⟨rfl, rfl⟩
  rw [collect, hfound, ← filterMap_ite, filterMap_eq_flatMap_toList, map_flatMap]
  refine congrArg source.uses.flatMap (funext fun u => ?_)
  rw [Use.reads, Use.afterKeyword]
  cases u.word? with
  | none => rfl
  | some w =>
    simp only [Option.elim_some, Option.any_some, decide_eq_true_eq]
    split <;> rfl

theorem grouped_imports :
    ((groupPattern.collect 1 source.text).flatMap fun list =>
        ((quoted 1).collect 1 list).map fun m => ⟨String.ofList m, .grouped⟩) =
      (source.uses.filter Use.grouped).map (·.found .grouped) := by
  have hlists := (scans_group.source source (reads_lists _)).findAll ⟨rfl, rfl⟩
  have hlisted : (groupPattern.findAll source.text).flatMap listed =
      (source.uses.filter Use.grouped).map (·.spec.path.text) := by
    rw [flatMap_def, hlists, ← flatMap_id, flatMap_assoc, ImportSource.uses,
      filter_flatMap, map_flatMap]
    refine congrArg source.declarations.flatMap (funext fun d => ?_)
    rw [flatMap_id, flatten_lists]
  have hmap := congrArg (List.map fun m => (⟨String.ofList m, .grouped⟩ : Import)) hlisted
  rw [map_flatMap, map_map] at hmap
  rw [collect, flatMap_map]
  exact hmap

theorem aliased_imports :
    (aliasPattern.findAll source.text).map (fun m =>
        ⟨String.ofList (m.group 2), .aliased (String.ofList (m.group 1))⟩) =
      source.uses.filterMap Use.aliased? := by
  have hfound := (scans_alias.source source (scans_alias.declarations
    (fun gap tail => (passes_opening (takesWord_group 1) 2 gap tail).assoc) _)).findAll ⟨rfl, rfl⟩
  have hmap := congrArg (List.map fun a =>
    (⟨String.ofList a.2, .aliased (String.ofList a.1)⟩ : Import)) hfound
  rw [map_map, map_flatMap] at hmap
  refine hmap.trans ?_
  rw [filterMap_eq_flatMap_toList]
  refine congrArg source.uses.flatMap (funext fun u => ?_)
  rw [Use.reads, Use.aliased?]
  cases u.word? <;> rfl

theorem imports_text :
    imports source.text = (source.uses.filter Use.afterKeyword).map (·.found .single) ++
      (source.uses.filter Use.grouped).map (·.found .grouped) ++
      source.uses.filterMap Use.aliased? := by
  rw [imports, single_imports, grouped_imports, aliased_imports]

/-- What is reported of one path, whatever the order. -/
def Use.reports (u : Use) : List Import :=
  (if u.afterKeyword then some (u.found .single) else none).toList ++
    (if u.grouped then some (u.found .grouped) else none).toList ++ u.aliased?.toList

theorem imports_perm : (imports source.text).Perm (source.uses.flatMap Use.reports) := by
  rw [imports_text, ← filterMap_ite, ← filterMap_ite, filterMap_eq_flatMap_toList,
    filterMap_eq_flatMap_toList, filterMap_eq_flatMap_toList]
  exact ((flatMap_append_perm _ _ _).append_right _).trans (flatMap_append_perm _ _ _)

/-- A path that is reported once: in a list without an alias, or outside with one that does not end
in the keyword. -/
def Use.Clean (u : Use) : Prop :=
  (u.grouped = true ↔ u.spec.alias? = none) ∧
    ∀ a, u.spec.alias? = some a → ¬ keyword.text <:+ a.1.text

def Use.declared (u : Use) : String × Option String :=
  (String.ofList u.spec.path.text, u.spec.alias?.map fun a => String.ofList a.1.text)

/-- A path with its alias, as reported. -/
def Import.named (i : Import) : String × Option String :=
  (i.module, match i.form with
    | .single => none
    | .grouped => none
    | .aliased name => some name)

theorem Use.reports_of_clean (h : u.Clean) : u.reports.map Import.named = [u.declared] := by
  obtain ⟨grouped, ⟨_ | ⟨name, gap⟩, path⟩⟩ := u
  · obtain rfl : grouped := h.1.mpr rfl
    rfl
  · obtain rfl : grouped = false := by simpa using h.1
    have hafter : afterKeyword ⟨false, ⟨some (name, gap), path⟩⟩ = false :=
      decide_eq_false (h.2 _ rfl)
    rw [reports, hafter]
    rfl

theorem Use.length_reports (u : Use) : u.reports.length =
    u.afterKeyword.toNat + u.grouped.toNat + u.word?.isSome.toNat := by
  unfold reports aliased?
  cases u.afterKeyword <;> cases u.grouped <;> cases u.word? <;> rfl

theorem Use.one_le_length_reports (u : Use) : 1 ≤ u.reports.length := by
  obtain ⟨_ | _, ⟨_ | a, path⟩⟩ := u <;> simp [length_reports, word?]

theorem Use.clean_of_length_reports (h : u.reports.length = 1) : u.Clean := by
  rw [length_reports] at h
  obtain ⟨_ | _, ⟨_ | ⟨name, gap⟩, path⟩⟩ := u
  · cases h
  · have hafter : decide (keyword.text <:+ name.text) = false := by
      simpa [afterKeyword, word?] using h
    refine ⟨by simp, fun a ha => ?_⟩
    obtain rfl := Option.some.inj ha
    exact of_decide_eq_false hafter
  · exact ⟨by simp, nofun⟩
  · simp [word?] at h

theorem length_eq_one_of_flatMap {α β : Type} {f : α → List β} (h : ∀ a, 1 ≤ (f a).length)
    {l : List α} (hl : (l.flatMap f).length = l.length) : ∀ a ∈ l, (f a).length = 1 := by
  have hle : ∀ l : List α, l.length ≤ (l.flatMap f).length := by
    intro l
    induction l with
    | nil => exact Nat.le_refl _
    | cons a l ih =>
      rw [flatMap_cons, length_append, length_cons]
      have ha := h a
      omega
  induction l with
  | nil => exact nofun
  | cons a l ih =>
    rw [flatMap_cons, length_append, length_cons] at hl
    have ha := h a
    have hmore := hle l
    rw [forall_mem_cons]
    exact ⟨by omega, ih (by omega)⟩

/-- **Every path is reported once, with its alias, exactly if** all paths in lists are without an
alias, and all others have one that does not end in the keyword. What is reported are the paths
behind a word that ends in the keyword, then those in lists, then those behind any word, with that
word as their alias. -/
theorem imports_once_iff (source : ImportSource) :
    imports source.text = (source.uses.filter Use.afterKeyword).map (·.found .single) ++
        (source.uses.filter Use.grouped).map (·.found .grouped) ++
        source.uses.filterMap Use.aliased? ∧
      (((imports source.text).map Import.named).Perm (source.uses.map Use.declared) ↔
        ∀ u ∈ source.uses, u.Clean) := by
  refine ⟨imports_text source, ?_⟩
  have hperm := (imports_perm source).map Import.named
  constructor
  · intro h
    have hlength := (hperm.symm.trans h).length_eq
    rw [length_map, length_map] at hlength
    intro u hu
    exact Use.clean_of_length_reports
      (length_eq_one_of_flatMap Use.one_le_length_reports hlength u hu)
  · intro h
    refine hperm.trans (.of_eq ?_)
    rw [map_flatMap, map_eq_flatMap]
    exact flatMap_congr fun u hu => Use.reports_of_clean (h u hu)

/-- The path of a declaration without parentheses. -/
def plainPath : Run inPath :=
  ⟨"m".toList, by decide, by decide⟩

/-- A package clause and a declaration of one path. -/
def onePath : ImportSource where
  before := ⟨[], by decide⟩
  gap := ⟨" ".toList, by decide, by decide⟩
  package := ⟨"p".toList, by decide, by decide⟩
  after := ⟨"\n".toList, by decide, by decide⟩
  declarations := [.single ⟨" ".toList, by decide, by decide⟩ ⟨none, plainPath⟩ ⟨[], by decide⟩]

/-- A path without an alias is reported twice, once with the keyword as its alias. -/
theorem imports_onePath :
    onePath.text = "package p\nimport \"m\"".toList ∧
      imports onePath.text = [⟨"m", .single⟩, ⟨"m", .aliased "import"⟩] := by
  decide +kernel

end CodeAtlas.Go
