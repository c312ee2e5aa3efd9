import Mathlib.Data.List.Perm.Basic
import CodeAtlas.Proofs.ExportTexts

/-!
# Exports written one in each line

The three patterns for exports begin with the word `export`, which may also stand at the end of a
name. Behind a name none of them goes on (`Behind`), so each finds a match at most at the start of a
line (`Behind.passes_body`), and the lines are read one by one.
-/

open List

namespace CodeAtlas.JavaScript

open Pattern Text

variable {bound : Nat} {q : Pattern} {after tail : List Char}

/-! ## What follows a name -/

/-- What may stand behind a name, as far as it matters. -/
def followers : List String :=
  [" =", "(", " \x7b\x7d", ",", " \x7d", ";", " as ", "\nexport"]

/-- A text that may stand behind a name. -/
def Follows (after : List Char) : Prop :=
  after = [] ∨ after = ['\n'] ∨ ∃ w ∈ followers, ∃ rest, after = w.toList ++ rest

theorem Follows.head (h : Follows after) :
    after.head?.any (fun c => isExportChar c || c == '.') = false := by
  rcases h with rfl | rfl | ⟨w, hw, rest, rfl⟩
  · rfl
  · rfl
  · simp only [followers, mem_cons, not_mem_nil, or_false] at hw
    rcases hw with rfl | rfl | rfl | rfl | rfl | rfl | rfl | rfl <;> rfl

theorem Follows.head_word (h : Follows after) : after.head?.any isAsciiWord = false := by
  have hhead := h.head
  cases after with
  | nil => rfl
  | cons c after =>
    simp only [head?_cons, Option.any_some, isExportChar, Bool.or_eq_false_iff] at hhead ⊢
    exact hhead.1.1

/-- The rest of a pattern does not match behind a word that is a name or ends one. -/
structure Behind (q : Pattern) : Prop where
  refuses : ∀ c, isExportChar c = true → q.Refuses (some c)
  fails : ∀ after, Follows after → q.FailsAt after

/-- The word `export` within a name begins no export. -/
theorem Behind.passes_name (hq : Behind q) (n : ExportName) (h : Follows after) :
    Passes (lit "export" ++ q) n.text after := by
  have hletters : ∀ d ∈ "export".toList, isExportChar d := by decide
  refine .lit_word (.of_refuses fun c hc => hq.refuses c (n.all c hc)) (fun c hc hmem => ?_)
    fun _ => hq.fails after h
  have hhead := h.head
  rw [hc, Option.any_some, hletters c hmem] at hhead
  cases hhead

variable {r : Pattern} {rest word : List Char} {keyword : String}

/-- A pattern that cannot begin with what `Follows` a name fails there, and behind white space. -/
theorem failsAt_of_follows (htakes : ∀ c ∈ " \n=(,\x7d;ae".toList, r.takes (some c) = false)
    (hend : r.takes none = false) (hskips : r.skips = false)
    (hbraces : ∀ rest, r.FailsAt ("\x7b\x7d".toList ++ rest)) (h : Follows after) :
    (blanks ++ r).FailsAt after ∧ (blanks1 ++ r).FailsAt after := by
  have hrefuses : ∀ c ∈ " \n=(,\x7d;ae".toList, r.Refuses (some c) :=
    fun c hc => ⟨htakes c hc, hskips⟩
  have hwhite : ∀ {gap rest : List Char}, (∀ c ∈ gap, c ∈ [' ', '\n']) →
      rest.head?.any isBlank = false → r.FailsAt rest →
      (blanks ++ r).FailsAt (gap ++ rest) ∧ (blanks1 ++ r).FailsAt (gap ++ rest) := by
    intro gap rest hgap hstop hrest
    have hwhite : ∀ c ∈ [' ', '\n'], c ∈ " \n=(,\x7d;ae".toList := by decide
    have hgap' : Passes r gap rest := .of_refuses fun c hc => hrefuses c (hwhite c (hgap c hc))
    exact ⟨.within .span hgap' hstop hrest, .within .span hgap' hstop hrest⟩
  have hhead : ∀ c ∈ " \n=(,\x7d;ae".toList, ∀ rest, r.FailsAt (c :: rest) :=
    fun c hc rest => .of_refuses (hrefuses c hc)
  rcases h with rfl | rfl | ⟨w, hw, rest, rfl⟩
  · exact @hwhite [] [] (by simp) rfl (.of_refuses ⟨hend, hskips⟩)
  · exact @hwhite ['\n'] [] (by simp) rfl (.of_refuses ⟨hend, hskips⟩)
  · simp only [followers, mem_cons, not_mem_nil, or_false] at hw
    rcases hw with rfl | rfl | rfl | rfl | rfl | rfl | rfl | rfl
    · exact @hwhite [' '] ('=' :: rest) (by simp) rfl (hhead '=' (by decide) _)
    · exact @hwhite [] ('(' :: rest) (by simp) rfl (hhead '(' (by decide) _)
    · exact @hwhite [' '] ("\x7b\x7d".toList ++ rest) (by simp) rfl (hbraces rest)
    · exact @hwhite [] (',' :: rest) (by simp) rfl (hhead ',' (by decide) _)
    · exact @hwhite [' '] ('\x7d' :: rest) (by simp) rfl (hhead '\x7d' (by decide) _)
    · exact @hwhite [] (';' :: rest) (by simp) rfl (hhead ';' (by decide) _)
    · exact @hwhite [' '] ("as ".toList ++ rest) (by simp) rfl (hhead 'a' (by decide) _)
    · exact @hwhite ['\n'] ("export".toList ++ rest) (by simp) rfl (hhead 'e' (by decide) _)

/-! ## The three patterns -/

/-- `namedExportPattern` behind the word `export`. -/
def namedRest : Pattern :=
  anyOf declarationKeywords ++ blanks1 ++ group 1 (many1 isAsciiWord)

/-- `defaultExportPattern` behind the word `export`. -/
def defaultRest : Pattern :=
  lit "default" ++ blanks1 ++ group 1 (many1 fun c => isAsciiWord c || c == '$' || c == '.')

/-- `exportListPattern` behind the word `export`. -/
def listRest : Pattern :=
  lit "\x7b" ++ group 1 (many1 (notAmong "\x7d")) ++ lit "\x7d"

theorem advance_namedExport (bound : Nat) (next : State → Option State) (s : State) :
    advance bound namedExportPattern next s =
      advance bound (lit "export" ++ (blanks1 ++ namedRest)) next s := rfl

theorem advance_defaultExport (bound : Nat) (next : State → Option State) (s : State) :
    advance bound defaultExportPattern next s =
      advance bound (lit "export" ++ (blanks1 ++ defaultRest)) next s := rfl

theorem advance_exportList (bound : Nat) (next : State → Option State) (s : State) :
    advance bound exportListPattern next s =
      advance bound (lit "export" ++ (blanks ++ listRest)) next s := rfl

theorem refuses_blanks1 {c : Char} (h : isExportChar c) (r : Pattern) :
    (blanks1 ++ r).Refuses (some c) :=
  .append_left ⟨isBlank_of_isExportChar h, rfl⟩

theorem behind_named : Behind (blanks1 ++ namedRest) where
  refuses _ hc := refuses_blanks1 hc _
  fails _ h := (failsAt_of_follows (by decide) rfl rfl (fun _ => .of_refuses ⟨rfl, rfl⟩) h).2

theorem behind_default : Behind (blanks1 ++ defaultRest) where
  refuses _ hc := refuses_blanks1 hc _
  fails _ h := (failsAt_of_follows (by decide) rfl rfl (fun _ => .of_refuses ⟨rfl, rfl⟩) h).2

/-- `listRest` has at least one character between its braces. -/
theorem failsAt_listRest (rest : List Char) : listRest.FailsAt ("\x7b\x7d".toList ++ rest) := by
  have hinner : (group 1 (many1 (notAmong "\x7d")) ++ lit "\x7d").FailsAt ('\x7d' :: rest) :=
    .of_refuses ⟨rfl, rfl⟩
  have hall : (lit "\x7b" ++ (group 1 (many1 (notAmong "\x7d")) ++ lit "\x7d")).FailsAt
      ("\x7b".toList ++ '\x7d' :: rest) := .lit_append hinner
  exact hall

theorem behind_list : Behind (blanks ++ listRest) where
  refuses c hc := by
    have hbrace : (c == '\x7b') = false := by
      refine beq_eq_false_iff_ne.mpr ?_
      rintro rfl
      exact absurd hc (by decide)
    exact .append (isBlank_of_isExportChar hc) (.append_left (.append_left ⟨hbrace, rfl⟩))
  fails _ h := (failsAt_of_follows (by decide) rfl rfl failsAt_listRest h).1

/-! ## Lines -/

/-- An export in a line, with or without a semicolon. -/
structure ExportLine where
  what : ExportText
  semicolon : Bool

namespace ExportLine

variable (l : ExportLine)

def stop : List Char :=
  if l.semicolon then [';'] else []

/-- What follows the word `export`. -/
def body : List Char :=
  ' ' :: (l.what.opening.toList ++ (l.what.remainder ++ l.stop))

def text : List Char :=
  "export".toList ++ l.body

end ExportLine

theorem ExportLine.body_eq {l : ExportLine} {w : ExportText} (h : l.what = w) :
    l.body = ' ' :: (w.opening.toList ++ (w.remainder ++ l.stop)) := by
  rw [← h]
  rfl

theorem Follows.of_mem {w : String} (h : w ∈ followers) (rest : List Char) :
    Follows (w.toList ++ rest) :=
  .inr (.inr ⟨w, h, rest, rfl⟩)

theorem ExportLine.follows_stop (l : ExportLine) (h : Follows tail) : Follows (l.stop ++ tail) := by
  obtain ⟨what, _ | _⟩ := l
  · exact h
  · exact @Follows.of_mem ";" (by decide) tail

theorem follows_declarationEnd (keyword : String) (rest : List Char) :
    Follows (declarationEnd keyword ++ rest) := by
  unfold declarationEnd
  split
  · exact @Follows.of_mem "(" (by decide) (") \x7b\x7d".toList ++ rest)
  · split
    · exact @Follows.of_mem " \x7b\x7d" (by decide) rest
    · exact @Follows.of_mem " =" (by decide) (" 1".toList ++ rest)

theorem passes_fixed {fixed : List Char} (h : apart "export".toList fixed) :
    Passes (lit "export" ++ q) fixed rest :=
  (Passes.lit_of_apart h).extend q

/-- The words and signs that may follow the word `export`. -/
def openings : List String :=
  declarationKeywords ++ ["async", "\x7b", "default"]

theorem ExportText.opening_mem (w : ExportText) : w.opening ∈ openings := by
  have hothers : ∀ o ∈ ["async", "\x7b", "default"], o ∈ openings :=
    fun o ho => mem_append_right _ ho
  cases w with
  | declared keyword name => exact mem_append_left _ keyword.2
  | async name => exact hothers "async" (by decide)
  | list items => exact hothers "\x7b" (by decide)
  | default _ | defaultDeclared _ _ => exact hothers "default" (by decide)

theorem ExportText.apart_opening (w : ExportText) : apart "export".toList w.opening.toList := by
  have hall : (openings.all fun o => apart "export".toList o.toList) := rfl
  exact all_eq_true.mp hall w.opening w.opening_mem

theorem head?_of_mem_openings {o : String} (h : o ∈ openings) (rest : List Char) :
    (o.toList ++ rest).head? = o.toList.head? ∧ o.toList.head?.any isBlank = false := by
  have hall : (openings.all fun o => o.toList.head?.any fun c => !isBlank c) := rfl
  have hhead := all_eq_true.mp hall o h
  cases hchars : o.toList with
  | nil =>
    rw [hchars] at hhead
    cases hhead
  | cons c more =>
    rw [hchars] at hhead
    exact ⟨rfl, by simpa using hhead⟩

section Behind

variable (hq : Behind q)

include hq

theorem Behind.passes_declaration (n : ExportName) (keyword : String) (rest : List Char) :
    Passes (lit "export" ++ q) (n.text ++ declarationEnd keyword) rest := by
  refine .append (hq.passes_name n (follows_declarationEnd keyword rest)) (passes_fixed ?_)
  unfold declarationEnd
  split
  · rfl
  · split <;> rfl

theorem Behind.passes_item (i : ExportItem) (h : Follows after) :
    Passes (lit "export" ++ q) i.text after := by
  obtain ⟨name, _ | a⟩ := i
  · exact hq.passes_name name h
  · have hname : Passes (lit "export" ++ q) name.text (" as ".toList ++ (a.text ++ after)) :=
      hq.passes_name name (.of_mem (by decide) _)
    exact (hname.append (passes_fixed rfl)).append (hq.passes_name a h)

theorem Behind.passes_items (items : List ExportItem) (rest : List Char) :
    Passes (lit "export" ++ q) (itemsText items) ('\x7d' :: rest) := by
  have hjoined : Passes (lit "export" ++ q) (joinWith [',', ' '] (items.map ExportItem.text))
      ([' '] ++ '\x7d' :: rest) := by
    induction items with
    | nil => exact .nil _ _
    | cons i items ih =>
      cases items with
      | nil => exact hq.passes_item i (@Follows.of_mem " \x7d" (by decide) rest)
      | cons j items =>
        refine .append (.append (hq.passes_item i ?_) (passes_fixed rfl)) ih
        exact @Follows.of_mem "," (by decide) (' ' :: _)
  have hspace : ∀ rest, Passes (lit "export" ++ q) [' '] rest := fun rest => passes_fixed rfl
  exact (hspace _).append (hjoined.append (hspace _))

theorem Behind.passes_remainder (w : ExportText) (h : Follows after) :
    Passes (lit "export" ++ q) w.remainder after := by
  have hspace : ∀ rest, Passes (lit "export" ++ q) [' '] rest := fun rest => passes_fixed rfl
  cases w with
  | declared keyword name => exact (hspace _).append (hq.passes_declaration name keyword.1 after)
  | async name => exact .append (passes_fixed rfl) (hq.passes_declaration name "function" after)
  | list items => exact .append (hq.passes_items items after) (passes_fixed rfl)
  | default name => exact (hspace _).append (hq.passes_name name h)
  | defaultDeclared keyword name =>
    have hkeywords : (defaultKeywords.all fun w => apart "export".toList w.toList) := rfl
    have hkeyword := all_eq_true.mp hkeywords keyword.1 keyword.2
    exact (hspace _).append ((passes_fixed hkeyword).append
      ((hspace _).append (hq.passes_declaration name keyword.1 after)))

theorem Behind.passes_body (l : ExportLine) (h : Follows tail) :
    Passes (lit "export" ++ q) l.body tail := by
  have hspace : ∀ rest, Passes (lit "export" ++ q) [' '] rest := fun rest => passes_fixed rfl
  have hstop : Passes (lit "export" ++ q) l.stop tail := by
    obtain ⟨what, _ | _⟩ := l <;> exact passes_fixed rfl
  refine (hspace _).append ((passes_fixed ?_).append
    ((hq.passes_remainder l.what (l.follows_stop h)).append hstop))
  exact l.what.apart_opening

end Behind

/-! ## Reading a line -/

/-- A pattern that cannot begin with what follows `export` and a space. -/
theorem failsAt_body (l : ExportLine) {os : List String} (hmem : l.what.opening ∈ os)
    (htakes : (os.all fun o => !r.takes o.toList.head?)) (hspace : r.takes (some ' ') = false)
    (hskips : r.skips = false) (rest : List Char) :
    (blanks ++ r).FailsAt (l.body ++ rest) ∧ (blanks1 ++ r).FailsAt (l.body ++ rest) := by
  have hbody : l.body ++ rest =
      [' '] ++ (l.what.opening.toList ++ (l.what.remainder ++ l.stop ++ rest)) := by
    simp [ExportLine.body]
  obtain ⟨hhead, hblank⟩ := head?_of_mem_openings l.what.opening_mem
    (l.what.remainder ++ l.stop ++ rest)
  have hopening := all_eq_true.mp htakes _ hmem
  rw [Bool.not_eq_true', ← hhead] at hopening
  rw [← hhead] at hblank
  rw [hbody]
  exact ⟨.within .span (.single ⟨hspace, hskips⟩) hblank (.of_refuses ⟨hopening, hskips⟩),
    .space hblank (.of_refuses ⟨hopening, hskips⟩)⟩

section Reads

variable {p : Pattern} {β : Type} {meaning : Match → β}
variable (hp : ∀ bound next s, advance bound p next s = advance bound (lit "export" ++ q) next s)
variable (hq : Behind q) (l : ExportLine) (h : Follows tail)

include hp hq h

/-- A line in which nothing is found. -/
theorem reads_none (hfails : q.FailsAt (l.body ++ tail)) :
    Reads p meaning l.text [] tail := by
  have hstart : Passes (lit "export" ++ q) "export".toList (l.body ++ tail) :=
    passes_cons_iff.mpr ⟨.lit_append hfails, passes_fixed rfl⟩
  exact .of_passes (.of_advance_eq hp (hstart.append (hq.passes_body l h)))

/-- A line whose start is a match. -/
theorem reads_some {taken stop : List Char} {groups : List (Nat × List Char)} {b : β}
    (hbody : l.body = taken ++ stop)
    (hlead : ∀ bound, p.Leads bound ("export".toList ++ taken) (stop ++ tail) groups)
    (hmeaning : ∀ m : Match, (∀ index, m.group? index = groups.lookup index) → meaning m = b) :
    Reads p meaning l.text [b] tail := by
  have hpasses := Passes.of_advance_eq hp (hq.passes_body l h)
  have htext : l.text = "export".toList ++ taken ++ stop := by
    rw [append_assoc, ← hbody]
    rfl
  rw [hbody] at hpasses
  rw [htext]
  exact (Reads.of_leads (by simp) hlead hmeaning).append_passes
    (hpasses.of_suffix (suffix_append _ _))

end Reads

/-- Where no word begins a name, no declaration is found. -/
theorem failsAt_named (h : keyword ∈ declarationKeywords)
    (hblank : rest.head?.any isBlank = false) (hword : rest.head?.any isAsciiWord = false) :
    (blanks1 ++ namedRest).FailsAt ([' '] ++ (keyword.toList ++ ([' '] ++ rest))) := by
  have hkeywords : noneBegins declarationKeywords := rfl
  have hname : (blanks1 ++ group 1 (many1 isAsciiWord)).FailsAt ([' '] ++ rest) :=
    .space hblank (.of_refuses ⟨hword, rfl⟩)
  have hdeclared := FailsAt.anyOf_append hkeywords h hname
  obtain ⟨hhead, hopening⟩ := head?_of_mem_openings (mem_append_left _ h) ([' '] ++ rest)
  exact .space (hhead ▸ hopening) hdeclared

theorem leads_named (h : keyword ∈ declarationKeywords) (hne : word ≠ [])
    (hword : ∀ c ∈ word, isAsciiWord c) (hstop : rest.head?.any isAsciiWord = false) :
    namedExportPattern.Leads bound
      ("export".toList ++ ([' '] ++ (keyword.toList ++ ([' '] ++ word)))) rest [(1, word)] := by
  have hsolid : IsOneWord word := ⟨hne, fun c hc => isBlank_of_isAsciiWord (hword c hc)⟩
  obtain ⟨hhead, hopening⟩ := head?_of_mem_openings (mem_append_left _ h)
    ([' '] ++ (word ++ rest))
  have hkeywords : noneBegins declarationKeywords := rfl
  have hlead : namedExportPattern.Leads bound
      ("export".toList ++ [' '] ++ keyword.toList ++ [' '] ++ word) rest [(1, word)] :=
    ((((Leads.lit "export" _).append (.space (hhead ▸ hopening))).append
      (.anyOf hkeywords h _)).append (.space (hsolid.head?_isBlank rest))).append
      ((Leads.many1 hne hword hstop).group 1)
  simpa only [append_assoc] using hlead

theorem exists_word (n : ExportName) (h : Follows after) :
    ∃ word more, n.text.takeWhile isAsciiWord = word ∧ n.text = word ++ more ∧
      (∀ c ∈ word, isAsciiWord c) ∧ (more ++ after).head?.any isAsciiWord = false := by
  refine ⟨_, n.text.dropWhile isAsciiWord, rfl, takeWhile_append_dropWhile.symm,
    all_eq_true.mp all_takeWhile, ?_⟩
  have hhead := head?_dropWhile isAsciiWord n.text
  cases hmore : n.text.dropWhile isAsciiWord with
  | nil => exact h.head_word
  | cons c more => rwa [hmore] at hhead

/-- `namedExportPattern` reports a declaration by the word that begins its name. -/
theorem reads_declared {l : ExportLine} {keyword : {w : String // w ∈ declarationKeywords}}
    {name : ExportName} (hwhat : l.what = .declared keyword name) (h : Follows tail) :
    Reads namedExportPattern (·.group 1) l.text l.what.declared?.toList tail := by
  generalize hstop : declarationEnd keyword.1 ++ l.stop = stop
  have hfollows : Follows (stop ++ tail) := by
    rw [← hstop, append_assoc]
    exact follows_declarationEnd _ _
  have hbody : l.body = [' '] ++ (keyword.1.toList ++ ([' '] ++ (name.text ++ stop))) := by
    rw [ExportLine.body_eq hwhat, ← hstop, ← append_assoc name.text]
    rfl
  obtain ⟨word, more, htake, hname, hword, hafter⟩ := exists_word name hfollows
  have hout : l.what.declared? = if word = [] then none else some word := by
    rw [hwhat, ← htake]
    rfl
  rw [hout]
  split
  · rename_i hempty
    rw [hempty, nil_append] at hname
    refine reads_none advance_namedExport behind_named l h ?_
    have hsolid : IsOneWord name.text :=
      ⟨name.ne_nil, fun c hc => isBlank_of_isExportChar (name.all c hc)⟩
    have hfails := failsAt_named keyword.2 (hsolid.head?_isBlank (stop ++ tail)) (by
      rw [hname]
      exact hafter)
    rw [hbody]
    simpa only [append_assoc] using hfails
  · rename_i hne
    have hlead : ∀ bound, namedExportPattern.Leads bound _ (more ++ stop ++ tail) _ := fun bound =>
      leads_named keyword.2 hne hword (by rwa [append_assoc])
    refine reads_some advance_namedExport behind_named l h ?_ hlead fun m hgroups => ?_
    · rw [hbody, hname]
      simp only [append_assoc]
    · exact congrArg (Option.getD · []) (hgroups 1)

variable (l : ExportLine)

theorem reads_named (h : Follows tail) :
    Reads namedExportPattern (·.group 1) l.text l.what.declared?.toList tail := by
  have hother : l.what.opening ∈ ["async", "\x7b", "default"] →
      Reads namedExportPattern (·.group 1) l.text [] tail := fun hmem =>
    reads_none advance_namedExport behind_named l h (failsAt_body l hmem rfl rfl rfl tail).2
  obtain ⟨what, semicolon⟩ := l
  cases what with
  | declared keyword name => exact reads_declared rfl h
  | async _ | list _ | default _ | defaultDeclared _ _ => exact hother (by simp [ExportText.opening])

theorem leads_default (hne : word ≠ []) (hword : ∀ c ∈ word, isExportChar c)
    (hstop : rest.head?.any (fun c => isExportChar c || c == '.') = false) :
    defaultExportPattern.Leads bound
      ("export".toList ++ ([' '] ++ ("default".toList ++ ([' '] ++ word)))) rest [(1, word)] := by
  have hsolid : IsOneWord word := ⟨hne, fun c hc => isBlank_of_isExportChar (hword c hc)⟩
  have hall : ∀ c ∈ word, (isExportChar c || c == '.') := by
    intro c hc
    rw [hword c hc, Bool.true_or]
  have hlead : defaultExportPattern.Leads bound
      ("export".toList ++ [' '] ++ "default".toList ++ [' '] ++ word) rest [(1, word)] :=
    ((((Leads.lit "export" _).append (.space rfl)).append (.lit "default" _)).append
      (.space (hsolid.head?_isBlank rest))).append ((Leads.many1 hne hall hstop).group 1)
  simpa only [append_assoc] using hlead

theorem reads_default (h : Follows tail) :
    Reads defaultExportPattern (·.group 1) l.text l.what.reportedDefault?.toList tail := by
  have hother : l.what.opening ∈ declarationKeywords ++ ["async", "\x7b"] →
      Reads defaultExportPattern (·.group 1) l.text [] tail := fun hmem =>
    reads_none advance_defaultExport behind_default l h
      (failsAt_body l hmem rfl rfl rfl tail).2
  have hword : ∀ {word stop : List Char}, word ≠ [] → (∀ c ∈ word, isExportChar c) →
      (stop ++ tail).head?.any (fun c => isExportChar c || c == '.') = false →
      l.body = [' '] ++ ("default".toList ++ ([' '] ++ (word ++ stop))) →
      Reads defaultExportPattern (·.group 1) l.text [word] tail := by
    intro word stop hne hword hstop hbody
    refine reads_some advance_defaultExport behind_default l h ?_
      (fun _ => leads_default hne hword hstop) fun m hgroups => ?_
    · rw [hbody]
      simp only [append_assoc]
    · exact congrArg (Option.getD · []) (hgroups 1)
  cases hwhat : l.what with
  | declared keyword name => exact hother (hwhat ▸ mem_append_left _ keyword.2)
  | async _ | list _ => exact hother (by simp [hwhat, ExportText.opening])
  | default name =>
    exact hword name.ne_nil name.all (l.follows_stop h).head (ExportLine.body_eq hwhat)
  | defaultDeclared keyword name =>
    have hkeywords : (defaultKeywords.all fun w =>
        !w.toList.isEmpty && w.toList.all isExportChar) := rfl
    have hkeyword := all_eq_true.mp hkeywords keyword.1 keyword.2
    simp only [Bool.and_eq_true, Bool.not_eq_true', isEmpty_eq_false_iff, all_eq_true] at hkeyword
    have hbody : l.body = ' ' :: ("default".toList ++
        (' ' :: (keyword.1.toList ++ ' ' :: (name.text ++ declarationEnd keyword.1)) ++ l.stop)) :=
      ExportLine.body_eq hwhat
    refine @hword _ (' ' :: (name.text ++ declarationEnd keyword.1 ++ l.stop)) hkeyword.1
      hkeyword.2 rfl ?_
    rw [hbody]
    simp

/-- What stands between the braces of a list. -/
def ExportText.listText? : ExportText → Option (List Char)
  | list items => some (itemsText items)
  | declared _ _ | async _ | default _ | defaultDeclared _ _ => none

theorem leads_list (items : List ExportItem) (rest : List Char) : exportListPattern.Leads bound
      ("export".toList ++ ([' '] ++ ("\x7b".toList ++ (itemsText items ++ "\x7d".toList)))) rest
      [(1, itemsText items)] := by
  have hitems : ∀ c ∈ itemsText items, notAmong "\x7d" c := by
    intro c hc
    refine @notAmong_of_accepts (fun d => d != '\x7d') _ _ ?_ (by decide)
    rw [bne_iff_ne]
    rintro rfl
    exact brace_not_mem_itemsText items hc
  have hlead : exportListPattern.Leads bound
      ("export".toList ++ [' '] ++ "\x7b".toList ++ itemsText items ++ "\x7d".toList) rest
      [(1, itemsText items)] :=
    ((((Leads.lit "export" _).append (.many (by decide) rfl)).append (.lit "\x7b" _)).append
      ((Leads.many1 (cons_ne_nil _ _) hitems rfl).group 1)).append (.lit "\x7d" rest)
  simpa only [append_assoc] using hlead

theorem reads_list (h : Follows tail) :
    Reads exportListPattern (·.group 1) l.text l.what.listText?.toList tail := by
  have hother : l.what.opening ∈ declarationKeywords ++ ["async", "default"] →
      Reads exportListPattern (·.group 1) l.text [] tail := fun hmem =>
    reads_none advance_exportList behind_list l h (failsAt_body l hmem rfl rfl rfl tail).1
  cases hwhat : l.what with
  | declared keyword name => exact hother (hwhat ▸ mem_append_left _ keyword.2)
  | async _ | default _ | defaultDeclared _ _ => exact hother (by simp [hwhat, ExportText.opening])
  | list items =>
    refine reads_some advance_exportList behind_list l h ?_
      (fun _ => leads_list items (l.stop ++ tail)) fun m hgroups => ?_
    · have hbody : l.body = ' ' :: ("\x7b".toList ++ (itemsText items ++ "\x7d".toList ++ l.stop)) :=
        ExportLine.body_eq hwhat
      rw [hbody]
      simp
    · exact congrArg (Option.getD · []) (hgroups 1)

/-! ## All lines -/

variable (ls : List ExportLine) (ended : Bool)

theorem follows_afterLine : Follows (afterLine (ls.map ExportLine.text) ended) := by
  cases ls with
  | nil =>
    cases ended with
    | false => exact .inl rfl
    | true => exact .inr (.inl rfl)
  | cons l ls =>
    rw [map_cons, afterLine, linesText_cons]
    exact @Follows.of_mem "\nexport" (by decide) (l.body ++ _)

theorem collect_lines {p : Pattern} {out : ExportText → Option (List Char)}
    (hfeed : p.Refuses (some '\n')) (hend : p.Refuses none)
    (h : ∀ (l : ExportLine) (tail : List Char), Follows tail →
      Reads p (·.group 1) l.text (out l.what).toList tail) (ls : List ExportLine) (ended : Bool) :
    p.collect 1 (linesText (ls.map ExportLine.text) ended) = ls.filterMap fun l => out l.what :=
  findAll_linesText hfeed hend fun _ l _ _ => h l _ (follows_afterLine _ _)

/-- The items of a list are reported under the names that they are exported by. -/
theorem ExportText.items_listText? (w : ExportText) : (w.listText?.toList.flatMap fun list =>
      (commaList list).map fun item => String.ofList (exportedName item)) =
      w.listed.map String.ofList := by
  cases w with
  | list items =>
    rw [listed, map_map]
    exact (append_nil _).trans (commaList_items items)
  | declared _ _ | async _ | default _ | defaultDeclared _ _ => rfl

/-- `named` has what is reported for lines, apart from the default: first the declarations, then the
lists. -/
theorem named_lines :
    (exports (linesText (ls.map ExportLine.text) ended)).named =
      ((ls.filterMap fun l => l.what.declared?) ++ ls.flatMap fun l => l.what.listed).map
        String.ofList := by
  have hnamed := collect_lines (p := namedExportPattern) ⟨rfl, rfl⟩ ⟨rfl, rfl⟩
    (fun l _ h => reads_named l h) ls ended
  have hlist := collect_lines (p := exportListPattern) ⟨rfl, rfl⟩ ⟨rfl, rfl⟩
    (fun l _ h => reads_list l h) ls ended
  rw [filterMap_eq_flatMap_toList] at hlist
  rw [exports, Outline.collectTexts, hnamed, hlist]
  simp only [flatMap_assoc, ExportText.items_listText?, map_append, map_flatMap]

theorem default_lines :
    (exports (linesText (ls.map ExportLine.text) ended)).default =
      (ls.findSome? fun l => l.what.reportedDefault?).map String.ofList := by
  have hdefault := collect_lines (p := defaultExportPattern) ⟨rfl, rfl⟩ ⟨rfl, rfl⟩
    (fun l _ h => reads_default l h) ls ended
  rw [← head?_filterMap, ← hdefault, Pattern.collect, head?_map, ← find?_eq_head?, Option.map_map]
  rfl

/-! ## When the report is right -/

/-- How many characters names have together, and one for each. -/
def weight (names : List (List Char)) : Nat :=
  (names.flatMap fun name => ' ' :: name).length

theorem weight_append (names names' : List (List Char)) :
    weight (names ++ names') = weight names + weight names' := by
  rw [weight, flatMap_append, length_append]
  rfl

theorem weight_perm {names names' : List (List Char)} (h : names.Perm names') :
    weight names = weight names' :=
  (h.flatMap_right _).length_eq

namespace ExportText

/-- What is reported for an export, apart from the default. -/
def reported (w : ExportText) : List (List Char) :=
  w.declared?.toList ++ w.listed

/-- An export whose names are reported: no declared name has a dollar sign, and no declaration
stands behind `async`. -/
def Plain : ExportText → Prop
  | declared _ name => '$' ∉ name.text
  | async _ => False
  | list _ | default _ | defaultDeclared _ _ => True

def declaresDefault : ExportText → Bool
  | defaultDeclared _ _ => true
  | declared _ _ | async _ | list _ | default _ => false

theorem takeWhile_eq_self_iff (n : ExportName) :
    n.text.takeWhile isAsciiWord = n.text ↔ '$' ∉ n.text := by
  rw [List.takeWhile_eq_self_iff]
  constructor
  · intro h hmem
    exact absurd (h '$' hmem) (by decide)
  · intro h c hc
    have hchar := n.all c hc
    rw [isExportChar, Bool.or_eq_true, beq_iff_eq] at hchar
    exact hchar.resolve_right fun heq => h (heq ▸ hc)

theorem reported_of_plain {w : ExportText} (h : w.Plain) : w.reported = w.names := by
  cases w with
  | declared keyword name =>
    have hword := (takeWhile_eq_self_iff name).mpr h
    simp [reported, declared?, listed, names, hword, name.ne_nil]
  | async name => exact h.elim
  | list _ | default _ | defaultDeclared _ _ => rfl

theorem weight_reported (w : ExportText) :
    weight w.reported ≤ weight w.names ∧ (weight w.reported = weight w.names → w.Plain) := by
  cases w with
  | declared keyword name =>
    have hnames : weight (declared keyword name).names = name.text.length + 1 := by
      simp [weight, names]
    have hle : (name.text.takeWhile isAsciiWord).length ≤ name.text.length :=
      (List.takeWhile_prefix isAsciiWord).length_le
    by_cases hempty : name.text.takeWhile isAsciiWord = []
    · have hreported : weight (declared keyword name).reported = 0 := by
        simp [weight, reported, declared?, listed, hempty]
      rw [hnames, hreported]
      exact ⟨Nat.zero_le _, fun h => absurd h (by omega)⟩
    · have hreported : weight (declared keyword name).reported =
          (name.text.takeWhile isAsciiWord).length + 1 := by
        simp [weight, reported, declared?, listed, hempty]
      rw [hnames, hreported]
      refine ⟨by omega, fun h => (takeWhile_eq_self_iff name).mp ?_⟩
      exact (List.takeWhile_prefix isAsciiWord).eq_of_length (by omega)
  | async name => exact ⟨Nat.zero_le _, fun h =>
      absurd h (by simp [weight, reported, declared?, listed, names])⟩
  | list _ | default _ | defaultDeclared _ _ => exact ⟨Nat.le_refl _, fun _ => trivial⟩

end ExportText

/-- The exports are all `Plain` if nothing is missing in what is reported for them together. -/
theorem plain_of_weight_eq {ls : List ExportLine} :
    weight (ls.flatMap fun l => l.what.reported) ≤ weight (ls.flatMap fun l => l.what.names) ∧
      (weight (ls.flatMap fun l => l.what.reported) = weight (ls.flatMap fun l => l.what.names) →
        ∀ l ∈ ls, l.what.Plain) := by
  induction ls with
  | nil => exact ⟨Nat.le_refl _, fun _ l hl => absurd hl not_mem_nil⟩
  | cons l ls ih =>
    obtain ⟨hle, heq⟩ := l.what.weight_reported
    obtain ⟨hles, heqs⟩ := ih
    simp only [flatMap_cons, weight_append, forall_mem_cons]
    refine ⟨by omega, fun h => ⟨heq (by omega), heqs (by omega)⟩⟩

theorem reported_perm_iff (ls : List ExportLine) :
    ((ls.filterMap fun l => l.what.declared?) ++ ls.flatMap fun l => l.what.listed).Perm
        (ls.flatMap fun l => l.what.names) ↔ ∀ l ∈ ls, l.what.Plain := by
  have hperm : ((ls.filterMap fun l => l.what.declared?) ++ ls.flatMap fun l => l.what.listed).Perm
      (ls.flatMap fun l => l.what.reported) := by
    rw [filterMap_eq_flatMap_toList]
    exact flatMap_append_perm ls _ _
  constructor
  · intro h
    exact plain_of_weight_eq.2 (weight_perm (hperm.symm.trans h))
  · intro h
    have hsame : (ls.flatMap fun l => l.what.reported) = ls.flatMap fun l => l.what.names :=
      flatMap_congr fun l hl => ExportText.reported_of_plain (h l hl)
    exact hsame ▸ hperm

theorem reportedDefault_eq_iff (ls : List ExportLine) :
    (ls.findSome? fun l => l.what.reportedDefault?) = (ls.findSome? fun l => l.what.default?) ↔
      ∀ l ∈ ls.find? fun l => l.what.default?.isSome, l.what.declaresDefault = false := by
  induction ls with
  | nil => simp
  | cons l ls ih =>
    rw [findSome?_cons, findSome?_cons, find?_cons]
    cases hwhat : l.what with
    | declared _ _ | async _ | list _ => exact ih
    | default name =>
      simp [ExportText.reportedDefault?, ExportText.default?, hwhat, ExportText.declaresDefault]
    | defaultDeclared keyword name =>
      -- a keyword is no name
      have hreserved : ∀ w ∈ defaultKeywords, w ∈ reservedWords := by decide
      have hne : keyword.1.toList ≠ name.text := by
        intro heq
        have hmem := hreserved keyword.1 keyword.2
        rw [← String.ofList_toList (s := keyword.1), heq] at hmem
        exact name.not_reserved hmem
      simp [ExportText.reportedDefault?, ExportText.default?, hwhat,
        ExportText.declaresDefault, hne]

/-- **`exports` written one in each line.** -/
theorem exports_lines (ls : List ExportLine) (ended : Bool) :
    (exports (linesText (ls.map ExportLine.text) ended)).named =
      ((ls.filterMap fun l => l.what.declared?) ++ ls.flatMap fun l => l.what.listed).map
        String.ofList ∧
    (exports (linesText (ls.map ExportLine.text) ended)).default =
      (ls.findSome? fun l => l.what.reportedDefault?).map String.ofList ∧
    ((exports (linesText (ls.map ExportLine.text) ended)).named.Perm
        ((ls.flatMap fun l => l.what.names).map String.ofList) ↔ ∀ l ∈ ls, l.what.Plain) ∧
    ((exports (linesText (ls.map ExportLine.text) ended)).default =
        (ls.findSome? fun l => l.what.default?).map String.ofList ↔
      ∀ l ∈ ls.find? fun l => l.what.default?.isSome, l.what.declaresDefault = false) := by
  have hinjective : Function.Injective String.ofList := fun _ _ h => String.ofList_inj.mp h
  rw [named_lines, default_lines]
  refine ⟨rfl, rfl, ?_, ?_⟩
  · rw [map_perm_map_iff hinjective, reported_perm_iff]
  · rw [(Option.map_injective hinjective).eq_iff, reportedDefault_eq_iff]

/-- The word that begins a default declaration is reported in place of its name, and a function
behind `async` is not reported. -/
theorem exports_default_function :
    (exports "export default function n() \x7b\x7d".toList).default = some "function" ∧
      (exports "export async function n() \x7b\x7d".toList).named = [] := by
  decide +kernel

end CodeAtlas.JavaScript
