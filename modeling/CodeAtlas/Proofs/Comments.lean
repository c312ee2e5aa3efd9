import CodeAtlas.Proofs.Leading
import CodeAtlas.Proofs.LineEndings
import CodeAtlas.Proofs.MarkedOutlines

/-!
# Comments taken out

Block comments are taken out first and line comments from what is left. Both go from left to right,
so a text is taken out piece by piece (`replaceAll_of_passes`, `replaceAll_of_leads`). What stands
in block comments makes no difference to a report (`typeScript_blocks`). What stands in a line
comment makes one exactly if a block comment begins in it and does not end there, or if the block
comments leave no two slashes of it (`harmless_iff_typeScript`).
-/

open List

namespace CodeAtlas.Pattern

/-! ## Taking matches out -/

section Removal

variable {p : Pattern} {gap taken rest : List Char} {groups : List (Nat × List Char)}

/-- An `edgeless` pattern is found further on as in the rest of the text alone. -/
theorem searchFrom_of_edgeless (hp : p.edgeless) {bound : Nat} {c : Cursor}
    (h : c.rest.length ≤ bound) :
    p.searchFrom bound c = (p.findAll c.rest).map (Match.move c.position) := by
  have hmoved : Moved (fun _ _ => True) c.position c.rest.length ⟨.start c.rest, []⟩ ⟨c, []⟩ :=
    ⟨trivial, (Nat.zero_add _).symm, rfl, rfl, Nat.zero_add _⟩
  exact searchFrom_moved (fun _ => trivial) (Nat.le_refl _) h (blind_of_edgeless hp) hmoved

theorem replaceAll_of_passes (hp : p.edgeless) (h : Passes p gap rest) :
    p.replaceAll (fun _ => []) (gap ++ rest) = gap ++ p.replaceAll (fun _ => []) rest := by
  have hfound : p.findAll (gap ++ rest) = (p.findAll rest).map (Match.move gap.length) := by
    rw [findAll_eq_searchFrom, h.searchFrom rfl, searchFrom_of_edgeless hp (by simp [Cursor.pass])]
    simp [Cursor.pass, Cursor.start]
  rw [replaceAll, hfound]
  exact replaceFrom_append (fun _ _ => rfl) gap rest _

theorem replaceAll_of_leads (hp : p.edgeless) (h : ∀ bound, p.Leads bound taken rest groups)
    (hne : taken ≠ []) :
    p.replaceAll (fun _ => []) (taken ++ rest) = p.replaceAll (fun _ => []) rest := by
  obtain ⟨m, hmatch, hstart, hstop, -⟩ :=
    (h (taken ++ rest).length).matchAt? (c := .start (taken ++ rest)) rfl
  have hfound : p.findAll (taken ++ rest) =
      m :: (p.findAll rest).map (Match.move taken.length) := by
    rw [findAll_eq_searchFrom, searchFrom_of_some rfl hne hmatch hstop,
      searchFrom_of_edgeless hp (by simp [Cursor.pass])]
    simp [Cursor.pass, Cursor.start]
  have hstop : m.stop = 0 + taken.length := hstop
  have hafter : replaceFrom (fun _ => []) m.stop rest ((p.findAll rest).map (.move taken.length)) =
      p.replaceAll (fun _ => []) rest := by
    rw [hstop, replaceFrom_move fun _ _ => rfl, replaceAll]
  rw [replaceAll, hfound, replaceFrom, hstart, ← hafter]
  simp [hstop, Cursor.start]

end Removal

/-- A mark of two characters is passed over where it does not stand, and is not completed by what
follows. -/
theorem passes_mark {word : String} {a b : Char} (hword : word.toList = [a, b])
    {gap rest : List Char} (h : ¬ word.toList <:+: gap)
    (hend : gap.getLast? = some a → rest.head? ≠ some b) : Passes (lit word) gap rest := by
  intro left hleft hne
  refine .lit ?_
  rw [hword] at h ⊢
  rintro ⟨more, hmore⟩
  obtain ⟨passed, rfl⟩ := hleft
  rcases left with _ | ⟨c, _ | ⟨d, left⟩⟩
  · exact hne rfl
  · obtain ⟨rfl, rfl⟩ := cons.inj hmore
    exact hend (by simp) rfl
  · simp only [cons_append, cons.injEq] at hmore
    obtain ⟨rfl, rfl, -⟩ := hmore
    exact h ⟨passed, left, by simp⟩

end CodeAtlas.Pattern

namespace CodeAtlas

open Pattern Outline Text Survey

namespace TypeScript

def withoutBlocks (code : List Char) : List Char :=
  (blockComment "/*").replaceAll (fun _ => []) code

/-- A text without its line comments. -/
def withoutLines (code : List Char) : List Char :=
  (lineComment "//").replaceAll (fun _ => []) code

variable {gap inner rest : List Char}

/-! ## Block comments -/

theorem withoutBlocks_append (h : ¬ "/*".toList <:+: gap)
    (hend : gap.getLast? = some '/' → rest.head? ≠ some '*') :
    withoutBlocks (gap ++ rest) = gap ++ withoutBlocks rest :=
  replaceAll_of_passes (p := blockComment "/*") rfl (((passes_mark rfl h hend).extend _).extend _)

theorem passes_closing (h : ¬ "*/".toList <:+: inner) (hrest : rest.head? ≠ some '/') :
    Passes (lit "*/") inner rest :=
  passes_mark rfl h fun _ => hrest

/-- `withoutBlocks` takes a comment out up to the first closing mark. -/
theorem withoutBlocks_block (h : Passes (lit "*/") inner ("*/".toList ++ rest)) :
    withoutBlocks ("/*".toList ++ (inner ++ "*/".toList) ++ rest) = withoutBlocks rest :=
  replaceAll_of_leads (p := blockComment "/*") rfl
    (fun _ => (Leads.lit "/*" _).append (.fewest_append h (.lit "*/" rest))) (by simp)

/-- A text with block comments, each with what stands in it and what follows it up to the next. -/
structure Commented where
  first : List Char
  blocks : List (List Char × List Char)
  first_plain : ¬ "/*".toList <:+: first
  inner_open : ∀ b ∈ blocks, ¬ "*/".toList <:+: b.1
  after_plain : ∀ b ∈ blocks, ¬ "/*".toList <:+: b.2

namespace Commented

def blockText (b : List Char × List Char) : List Char :=
  "/*".toList ++ (b.1 ++ "*/".toList) ++ b.2

def text (a : Commented) : List Char :=
  a.first ++ a.blocks.flatMap blockText

def outside (a : Commented) : List Char :=
  a.first ++ a.blocks.flatMap Prod.snd

/-- **`withoutBlocks` takes out exactly the comments**, whatever stands in them. -/
theorem withoutBlocks_text (a : Commented) (hrest : rest.head? ≠ some '*') :
    withoutBlocks (a.text ++ rest) = a.outside ++ withoutBlocks rest := by
  obtain ⟨first, blocks, hfirst, hinner, hafter⟩ := a
  unfold text outside
  dsimp only
  induction blocks generalizing first with
  | nil =>
    rw [flatMap_nil, flatMap_nil, append_nil]
    exact withoutBlocks_append hfirst fun _ => hrest
  | cons b blocks ih =>
    have hblock : Passes (lit "*/") b.1
        ("*/".toList ++ (b.2 ++ blocks.flatMap blockText ++ rest)) :=
      passes_closing (hinner b mem_cons_self) (by simp)
    have hmore := ih b.2 (hafter b mem_cons_self)
      (fun b' hb' => hinner b' (mem_cons_of_mem _ hb'))
      fun b' hb' => hafter b' (mem_cons_of_mem _ hb')
    have hsplit : first ++ (b :: blocks).flatMap blockText ++ rest = first ++
        ("/*".toList ++ (b.1 ++ "*/".toList) ++ (b.2 ++ blocks.flatMap blockText ++ rest)) := by
      simp [blockText]
    rw [hsplit, withoutBlocks_append hfirst (fun _ => by simp), withoutBlocks_block hblock, hmore,
      flatMap_cons]
    simp only [append_assoc]

/-- A text with block comments after `unifyNewlines`. -/
def unified (a : Commented) : Commented where
  first := unifyNewlines a.first
  blocks := a.blocks.map fun b => (unifyNewlines b.1, unifyNewlines b.2)
  first_plain := fun h => a.first_plain (infix_of_unifyNewlines (by decide) h)
  inner_open := by
    intro _ hmem h
    obtain ⟨b, hb, rfl⟩ := mem_map.mp hmem
    exact a.inner_open b hb (infix_of_unifyNewlines (by decide) h)
  after_plain := by
    intro _ hmem h
    obtain ⟨b, hb, rfl⟩ := mem_map.mp hmem
    exact a.after_plain b hb (infix_of_unifyNewlines (by decide) h)

/-- `unifyNewlines` goes piece by piece, as no mark of a comment belongs to a line end. -/
theorem unifyNewlines_text (a : Commented) : unifyNewlines a.text = a.unified.text := by
  have hpieces : ∀ (first : List Char) (blocks : List (List Char × List Char)),
      unifyNewlines (first ++ blocks.flatMap blockText) = unifyNewlines first ++
        (blocks.map fun b => (unifyNewlines b.1, unifyNewlines b.2)).flatMap blockText := by
    intro first blocks
    induction blocks generalizing first with
    | nil => simp
    | cons b blocks ih =>
      have hsplit : first ++ (b :: blocks).flatMap blockText = first ++ ("/*".toList ++
          (b.1 ++ ("*/".toList ++ (b.2 ++ blocks.flatMap blockText)))) := by
        simp [blockText]
      rw [hsplit, unifyNewlines_append (by simp), unifyNewlines_append (by simp),
        unifyNewlines_append (by simp), unifyNewlines_append (by simp), ih]
      simp [blockText, unifyNewlines]
  exact hpieces a.first a.blocks

end Commented

/-! ## Reports -/

def Holds (w : Workspace) (path : String) (text : List Char) : Prop :=
  w.readFile (Path.normalForm path) = .ok (text.flatMap String.utf8EncodeChar)

variable {text : List Char} {c : Char} {a : Commented}

theorem Holds.typeScript {w : Workspace} {path : String} (h : Holds w path text) :
    Survey.typeScript w path =
      ⟨path, some Language.typeScript.name, .typeScript (outline (unifyNewlines text))⟩ := by
  rw [Survey.typeScript, Survey.readText_encode h]

theorem holds_oneFile (text : List Char) :
    Holds (oneFile (text.flatMap String.utf8EncodeChar)) "a.rb" text := by
  have hpath : Path.normalForm "a.rb" = "a.rb" := by decide +kernel
  rw [Holds, hpath, readFile_oneFile]

/-- **What stands in block comments makes no difference to `typeScript`**: two files with the same
text outside of as many block comments have the same report. -/
theorem typeScript_blocks {w w' : Workspace} {path : String} {a a' : Commented}
    (hfirst : a.first = a'.first) (hafter : a.blocks.map Prod.snd = a'.blocks.map Prod.snd)
    (h : Holds w path a.text) (h' : Holds w' path a'.text) :
    typeScript w path = typeScript w' path := by
  have houtline : ∀ a : Commented, outline (unifyNewlines a.text) =
      outlineOfPlain (withoutLines (unifyNewlines a.first ++
        (a.blocks.map Prod.snd).flatMap unifyNewlines)) := by
    intro a
    have houtside : withoutBlocks a.unified.text = a.unified.outside := by
      have hall : withoutBlocks (a.unified.text ++ []) = a.unified.outside ++ withoutBlocks [] :=
        a.unified.withoutBlocks_text nofun
      rw [append_nil] at hall
      exact hall.trans (append_nil _)
    rw [a.unifyNewlines_text]
    show outlineOfPlain (withoutLines (withoutBlocks _)) = _
    rw [houtside]
    simp [Commented.outside, Commented.unified, flatMap_map]
  rw [h.typeScript, h'.typeScript, houtline, houtline, hfirst, hafter]

/-- Comments whose marks touch what stands in them and around them. -/
def touching : Commented where
  first := "/".toList
  blocks := [("a*".toList, "*".toList), ("/".toList, "class B".toList)]
  first_plain := by decide
  inner_open := by decide
  after_plain := by decide

/-- The same text with a class in the first comment and an empty second one. -/
def commentedOut : Commented where
  first := "/".toList
  blocks := [("class A".toList, "*".toList), ([], "class B".toList)]
  first_plain := by decide
  inner_open := by decide
  after_plain := by decide

/-- A class in a comment makes no difference. -/
theorem typeScript_commentedOut :
    touching.text = "//*a**/*/*/*/class B".toList ∧
      commentedOut.text = "//*class A*/*/**/class B".toList ∧
      typeScript (oneFile (touching.text.flatMap String.utf8EncodeChar)) "a.rb" =
        typeScript (oneFile (commentedOut.text.flatMap String.utf8EncodeChar))
          "a.rb" := by
  have hfirst : touching.first = commentedOut.first := rfl
  have hafter : touching.blocks.map Prod.snd = commentedOut.blocks.map Prod.snd := rfl
  exact ⟨by decide, by decide, typeScript_blocks hfirst hafter (holds_oneFile _) (holds_oneFile _)⟩

/-! ## Line comments -/

theorem withoutLines_append (h : ¬ "//".toList <:+: gap)
    (hend : gap.getLast? = some '/' → rest.head? ≠ some '/') :
    withoutLines (gap ++ rest) = gap ++ withoutLines rest :=
  replaceAll_of_passes (p := lineComment "//") rfl ((passes_mark rfl h hend).extend _)

/-- `withoutLines` takes a comment out up to the end of its line. -/
theorem withoutLines_comment (inner : List Char) :
    withoutLines ('/' :: '/' :: inner) = withoutLines (inner.dropWhile inLine) := by
  have htaken : ∀ c ∈ inner.takeWhile inLine, inLine c :=
    fun c hc => mem_takeWhile_imp hc
  have hout := replaceAll_of_leads (p := lineComment "//") rfl
    (fun _ => (Leads.lit "//" _).append (.many htaken (head?_dropWhile inLine inner))) (by simp)
  rw [append_assoc, takeWhile_append_dropWhile] at hout
  exact hout

theorem withoutLines_cons (h : c = '/' → rest.head? ≠ some '/') :
    withoutLines (c :: rest) = c :: withoutLines rest := by
  have hlone : ¬ "//".toList <:+: [c] := fun hc => by simpa using hc.length_le
  exact withoutLines_append hlone (by simpa using h)

/-- **What stands in a line comment makes no difference to `withoutLines`.** -/
theorem withoutLines_inner (front : List Char) {inner : List Char} (h : '\n' ∉ inner)
    (rest : List Char) : withoutLines (front ++ '/' :: '/' :: (inner ++ '\n' :: rest)) =
      withoutLines (front ++ '/' :: '/' :: '\n' :: rest) := by
  have hline : ∀ c ∈ inner, inLine c :=
    fun c hc => bne_iff_ne.mpr (ne_of_mem_of_not_mem hc h)
  have hdrop : (inner ++ '\n' :: rest).dropWhile inLine = '\n' :: rest :=
    dropWhile_append_of_pos hline
  -- along what stands in front, the texts agree from here on and from the next line on
  suffices hboth : withoutLines (front ++ '/' :: '/' :: (inner ++ '\n' :: rest)) =
        withoutLines (front ++ '/' :: '/' :: '\n' :: rest) ∧
      withoutLines ((front ++ '/' :: '/' :: (inner ++ '\n' :: rest)).dropWhile inLine) =
        withoutLines ((front ++ '/' :: '/' :: '\n' :: rest).dropWhile inLine) from hboth.1
  induction front with
  | nil =>
    refine ⟨?_, congrArg withoutLines hdrop⟩
    rw [nil_append, nil_append, withoutLines_comment, withoutLines_comment, hdrop]
    rfl
  | cons c front ih =>
    simp only [cons_append]
    generalize htext : front ++ '/' :: '/' :: (inner ++ '\n' :: rest) = text at ih
    generalize htext' : front ++ '/' :: '/' :: '\n' :: rest = text' at ih
    have hhead : text.head? = text'.head? := by
      rw [← htext, ← htext']
      cases front <;> rfl
    have hhere : withoutLines (c :: text) = withoutLines (c :: text') := by
      by_cases hc : c = '/' ∧ text.head? = some '/'
      · obtain ⟨more, rfl⟩ := head?_eq_some_iff.mp hc.2
        obtain ⟨more', rfl⟩ := head?_eq_some_iff.mp (hhead ▸ hc.2)
        rw [hc.1, withoutLines_comment, withoutLines_comment]
        exact ih.2
      · rw [withoutLines_cons fun h h' => hc ⟨h, h'⟩,
          withoutLines_cons fun h h' => hc ⟨h, hhead.trans h'⟩, ih.1]
    refine ⟨hhere, ?_⟩
    rw [dropWhile_cons, dropWhile_cons]
    split
    · exact ih.2
    · exact hhere

/-! ## Line comments among block comments -/

/-- A text stands in another for the first time. -/
theorem exists_first_infix {mark : List Char} (hne : mark ≠ []) (h : mark <:+: text) :
    ∃ front rest, text = front ++ (mark ++ rest) ∧ ¬ mark <:+: front := by
  induction text with
  | nil => exact absurd (infix_nil.mp h) hne
  | cons c text ih =>
    by_cases hhere : mark <+: c :: text
    · obtain ⟨rest, hrest⟩ := hhere
      exact ⟨[], rest, hrest.symm, fun hnil => hne (infix_nil.mp hnil)⟩
    · obtain ⟨front, rest, rfl, hfront⟩ := ih ((infix_cons_iff.mp h).resolve_left hhere)
      refine ⟨c :: front, rest, rfl, fun hinfix => ?_⟩
      rcases infix_cons_iff.mp hinfix with hbegins | hinfix
      · exact hhere (hbegins.trans (prefix_append (c :: front) _))
      · exact hfront hinfix

/-- A text with block comments after one more comment. -/
def Commented.behind {front inner : List Char} (hfront : ¬ "/*".toList <:+: front)
    (hinner : ¬ "*/".toList <:+: inner) (a : Commented) : Commented where
  first := front
  blocks := (inner, a.first) :: a.blocks
  first_plain := hfront
  inner_open := forall_mem_cons.mpr ⟨hinner, a.inner_open⟩
  after_plain := forall_mem_cons.mpr ⟨a.first_plain, a.after_plain⟩

theorem Commented.text_behind {front inner : List Char} (hfront : ¬ "/*".toList <:+: front)
    (hinner : ¬ "*/".toList <:+: inner) (a : Commented) : (a.behind hfront hinner).text =
      front ++ ("/*".toList ++ (inner ++ ("*/".toList ++ a.text))) := by
  simp [behind, text, blockText]

/-- Every text is a `Commented` one, the last comment of which may be left open. -/
theorem Commented.exists_text (text : List Char) : ∃ a : Commented,
    text = a.text ∨ ∃ last, text = a.text ++ ("/*".toList ++ last) ∧ ¬ "*/".toList <:+: last := by
  induction hlength : text.length using Nat.strongRecOn generalizing text with
  | ind length ih =>
    by_cases hopen : "/*".toList <:+: text
    · obtain ⟨front, rest, rfl, hfront⟩ := exists_first_infix (by simp) hopen
      by_cases hclose : "*/".toList <:+: rest
      · obtain ⟨inner, rest, rfl, hinner⟩ := exists_first_infix (by simp) hclose
        obtain ⟨a, ha⟩ := ih rest.length (by rw [← hlength]; simp; omega) rest rfl
        refine ⟨a.behind hfront hinner, ?_⟩
        rw [a.text_behind]
        rcases ha with ha | ⟨last, ha, hlast⟩
        · exact .inl (by rw [ha])
        · exact .inr ⟨last, by rw [ha]; simp only [append_assoc], hlast⟩
      · exact ⟨⟨front, [], hfront, by simp, by simp⟩, .inr ⟨rest, by simp [Commented.text], hclose⟩⟩
    · exact ⟨⟨text, [], hopen, by simp, by simp⟩, .inl (by simp [Commented.text])⟩

/-- A line comment is still one after the block comments that begin in it are taken out, all of
which end in it. -/
def Harmless (inner : List Char) : Prop :=
  ∃ a : Commented, a.text = '/' :: '/' :: inner ∧ "//".toList <+: a.outside

theorem Commented.mem_text_of_mem_outside (h : c ∈ a.outside) : c ∈ a.text := by
  rw [outside, mem_append, mem_flatMap] at h
  rw [text, mem_append, mem_flatMap]
  refine h.imp_right fun ⟨b, hb, hc⟩ => ⟨b, hb, ?_⟩
  exact mem_append_right _ hc

/-- `withoutComments` takes a `Harmless` comment out up to the end of its line. -/
theorem Harmless.withoutComments (h : Harmless inner) (hline : '\n' ∉ inner) {front : List Char}
    (hfront : ¬ "/*".toList <:+: front) (rest : List Char) :
    withoutComments (front ++ '/' :: '/' :: (inner ++ '\n' :: rest)) =
      withoutLines (front ++ '/' :: '/' :: '\n' :: withoutBlocks rest) := by
  obtain ⟨a, htext, more, hmore⟩ := h
  have hplain : ¬ "/*".toList <:+: ['\n'] := by decide
  have hfeed : withoutBlocks ('\n' :: rest) = '\n' :: withoutBlocks rest :=
    withoutBlocks_append hplain (by simp)
  have hmore' : '\n' ∉ more := by
    intro hmem
    have hmem' : '\n' ∈ a.text := Commented.mem_text_of_mem_outside (by simp [← hmore, hmem])
    simp [htext, hline] at hmem'
  show withoutLines (withoutBlocks _) = _
  rw [withoutBlocks_append hfront (by simp), ← cons_append, ← cons_append, ← htext,
    a.withoutBlocks_text (by simp), hfeed, ← hmore]
  exact withoutLines_inner front hmore' _

/-- Two slashes at the beginning of a text begin outside of its block comments. -/
theorem Commented.exists_outside {more : List Char} (h : '/' :: '/' :: inner = a.text ++ more)
    (hmore : ¬ "//".toList <+: more) : ∃ after, a.outside = '/' :: after := by
  unfold outside
  cases hfirst : a.first with
  | nil =>
    cases hblocks : a.blocks with
    | nil =>
      rw [text, hfirst, hblocks] at h
      exact absurd ⟨inner, h⟩ hmore
    | cons b blocks => simp [text, hfirst, hblocks, blockText] at h
  | cons c first =>
    rw [text, hfirst] at h
    exact ⟨_, congrArg (· :: _) (cons.inj h).1.symm⟩

/-- `withoutLines` leaves a slash that no other follows at the beginning. -/
theorem head?_withoutLines (h : rest.head? ≠ some '/')
    (hc : (withoutLines ('/' :: rest)).head? = some c) : c = '/' := by
  rw [withoutLines_cons fun _ => h] at hc
  exact (Option.some.inj hc).symm

/-- Where two slashes are not read as a line comment, or where a block comment begins behind them
that does not end in the line, the text is left empty or with a slash at its beginning. -/
theorem head?_withoutComments (h : ¬ Harmless inner) (hline : '\n' ∉ inner)
    (hc : (withoutComments ('/' :: '/' :: (inner ++ "\na*/".toList))).head? = some c) :
    c = '/' := by
  have hcode : withoutComments ('/' :: '/' :: (inner ++ "\na*/".toList)) =
      withoutLines (withoutBlocks ('/' :: '/' :: inner ++ "\na*/".toList)) := rfl
  obtain ⟨a, ha | ⟨last, ha, hlast⟩⟩ := Commented.exists_text ('/' :: '/' :: inner)
  · -- all block comments end in the line, and they leave less than two slashes
    obtain ⟨after, hafter⟩ := a.exists_outside (ha.trans (append_nil _).symm) (by simp)
    have hone : (after ++ withoutBlocks "\na*/".toList).head? ≠ some '/' := by
      cases after with
      | nil => decide +kernel
      | cons d after =>
        rintro ⟨⟩
        exact h ⟨a, ha.symm, after, hafter.symm⟩
    rw [hcode, ha, a.withoutBlocks_text (by simp), hafter] at hc
    exact head?_withoutLines hone hc
  · -- the last block comment ends behind the letter of the next line, and all of it is taken out
    obtain ⟨after, hafter⟩ := a.exists_outside ha (by simp)
    have hblock : Passes (lit "*/") (last ++ "\na".toList) ("*/".toList ++ []) :=
      (passes_closing hlast (by simp)).append (passes_closing (by decide) (by simp))
    have hopen : withoutBlocks ("/*".toList ++ last ++ "\na*/".toList) = [] := by
      have hout := withoutBlocks_block hblock
      simp only [append_assoc, append_nil] at hout ⊢
      exact hout
    rw [hcode, ha, append_assoc, a.withoutBlocks_text (by simp), hopen, hafter, append_nil] at hc
    by_cases hslash : after.head? = some '/'
    · obtain ⟨more, rfl⟩ := head?_eq_some_iff.mp hslash
      have hmore : ∀ d ∈ more, inLine d := by
        intro d hd
        have hmem : d ∈ '/' :: '/' :: inner :=
          ha ▸ mem_append_left _ (Commented.mem_text_of_mem_outside (by simp [hafter, hd]))
        have hfeed : '\n' ∉ '/' :: '/' :: inner := by simp [hline]
        exact bne_iff_ne.mpr (ne_of_mem_of_not_mem hmem hfeed)
      rw [withoutLines_comment, dropWhile_eq_nil_iff.mpr hmore] at hc
      cases hc
    · exact head?_withoutLines hslash hc

/-- A text in one line. -/
structure Inline where
  text : List Char
  feedless : '\n' ∉ text
  returnless : '\r' ∉ text

/-- A text with a line comment in it. -/
def Inline.between (x : Inline) (front rest : List Char) : List Char :=
  front ++ '/' :: '/' :: (x.text ++ '\n' :: rest)

theorem Inline.unifyNewlines_between (x : Inline) (front rest : List Char) :
    unifyNewlines (x.between front rest) =
      x.between (unifyNewlines front) (unifyNewlines rest) := by
  have hfeed : x.text.getLast? = some '\r' → ('\n' :: rest).head? ≠ some '\n' :=
    fun hlast => absurd (mem_of_getLast? hlast) x.returnless
  have hslashes : unifyNewlines ('/' :: '/' :: (x.text ++ '\n' :: rest)) =
      '/' :: '/' :: unifyNewlines (x.text ++ '\n' :: rest) := by
    rw [unifyNewlines_cons_of_ne (by decide), unifyNewlines_cons_of_ne (by decide)]
  rw [between, unifyNewlines_append (by simp), hslashes, unifyNewlines_append hfeed,
    unifyNewlines_of_not_mem x.returnless, unifyNewlines_cons_of_ne (by decide), between]

/-- `summary` begins as a text that begins neither with white space nor as an import does. -/
theorem head?_summary (hblank : isBlank c = false) (hc : c ≠ 'i') (code : List Char) :
    (summary (c :: code)).toList.head? = some c := by
  rw [summary_cons hblank hc, trim_cons hblank, abridged]
  split <;> simp

/-- **A line comment makes no difference to `typeScript` exactly if it is `Harmless`**: whatever
stands before and behind it, it may be exchanged for any other harmless one. -/
theorem harmless_iff_typeScript (x : Inline) :
    Harmless x.text ↔ ∀ y : Inline, Harmless y.text → ∀ (front rest : List Char),
      ¬ "/*".toList <:+: front → ∀ (w w' : Workspace) (path : String),
      Holds w path (x.between front rest) → Holds w' path (y.between front rest) →
        typeScript w path = typeScript w' path := by
  constructor
  · intro hx y hy front rest hfront w w' path hw hw'
    have hfront' : ¬ "/*".toList <:+: unifyNewlines front :=
      fun h => hfront (infix_of_unifyNewlines (by decide) h)
    have houtline : ∀ x : Inline, Harmless x.text → outline (unifyNewlines (x.between front rest)) =
        outlineOfPlain (withoutLines (unifyNewlines front ++
          '/' :: '/' :: '\n' :: withoutBlocks (unifyNewlines rest))) := by
      intro x hx
      rw [x.unifyNewlines_between]
      exact congrArg outlineOfPlain (hx.withoutComments x.feedless hfront' _)
    rw [hw.typeScript, hw'.typeScript, houtline x hx, houtline y hy]
  · intro hsame
    by_contra hx
    have hreport := hsame ⟨[], by simp, by simp⟩ ⟨⟨"//".toList, [], by decide, by simp, by simp⟩, rfl,
      by decide⟩ [] "a*/".toList (by simp) _ _ _ (holds_oneFile _) (holds_oneFile _)
    rw [(holds_oneFile _).typeScript, (holds_oneFile _).typeScript, Inline.unifyNewlines_between,
      Inline.unifyNewlines_between] at hreport
    have hsummary : summary (withoutComments (x.between [] "a*/".toList)) = "a*/" :=
      (congrArg Outline.summary
        (Finding.typeScript.inj (congrArg Report.finding hreport))).trans (by decide +kernel)
    cases hcode : withoutComments (x.between [] "a*/".toList) with
    | nil => exact absurd (hcode ▸ hsummary) (by decide +kernel)
    | cons c code =>
      obtain rfl := head?_withoutComments hx x.feedless (congrArg head? hcode)
      have hhead := head?_summary (c := '/') (by decide) (by decide) code
      rw [← hcode, hsummary] at hhead
      exact absurd hhead (by decide)

/-- A class in the lines behind a line comment. -/
def classBelow (x : Inline) : List Char :=
  x.between [] "class A\n/**/".toList

/-- A line comment takes the lines below with it where a block comment begins in it. -/
theorem typeScript_classBelow :
    typeScript (oneFile ((classBelow ⟨"/*".toList, by decide, by decide⟩).flatMap
        String.utf8EncodeChar)) "a.rb" ≠
      typeScript (oneFile ((classBelow ⟨[], by decide, by decide⟩).flatMap
        String.utf8EncodeChar)) "a.rb" := by
  rw [(holds_oneFile _).typeScript, (holds_oneFile _).typeScript]
  intro hreport
  have houtline := Finding.typeScript.inj (congrArg Report.finding hreport)
  exact absurd (congrArg Outline.classes houtline) (by decide +kernel)

end TypeScript

end CodeAtlas
