import CodeAtlas.Outline.Basic
import CodeAtlas.Proofs.Leading
import CodeAtlas.Proofs.Path

/-!
# Signatures

A signature is a name with its parameters in parentheses, divided by commas. Its parts carry what
makes them readable: a name is an ASCII identifier, a parameter is made of tokens without white
space, commas and parentheses.

Two facts make up the reading of a signature. The commas divide the parameters again
(`paramList_paramText`), and a pattern for a name and parenthesised parameters takes a written
signature as a whole and remembers its parts (`leads_signature`). Where declarations stand one
after another, each in a line with a closing line after it, a pattern finds those and only those
whose line it reads (`findAll_declarationsText`).
-/

open List

namespace CodeAtlas

variable {c : Char}

/-! ## Joined texts -/

namespace Text

variable {pieces : List (List Char)}

theorem joinWith_cons_cons (separator piece piece' : List Char) (pieces : List (List Char)) :
    joinWith separator (piece :: piece' :: pieces) =
      piece ++ separator ++ joinWith separator (piece' :: pieces) := rfl

theorem mem_joinWith {separator : List Char} (h : c ∈ joinWith separator pieces) :
    c ∈ separator ∨ ∃ piece ∈ pieces, c ∈ piece := by
  induction pieces with
  | nil => cases h
  | cons piece pieces ih =>
    cases pieces with
    | nil => exact .inr ⟨piece, mem_cons_self, h⟩
    | cons piece' pieces =>
      rw [joinWith_cons_cons, mem_append, mem_append] at h
      rcases h with (h | h) | h
      · exact .inr ⟨piece, mem_cons_self, h⟩
      · exact .inl h
      · rcases ih h with h | ⟨found, hfound, hc⟩
        · exact .inl h
        · exact .inr ⟨found, mem_cons_of_mem _ hfound, hc⟩

/-- A text with an end outside of a class at either side. -/
structure Firm (drops : Char → Bool) (text : List Char) : Prop where
  head : text.head?.any drops = false
  last : text.getLast?.any drops = false

variable {drops : Char → Bool} {text piece : List Char}

theorem Firm.of_forall (h : ∀ c ∈ text, drops c = false) : Firm drops text := by
  constructor
  · cases hc : text.head? with
    | none => rfl
    | some c => exact h c (mem_of_mem_head? hc)
  · cases hc : text.getLast? with
    | none => rfl
    | some c => exact h c (mem_of_getLast? hc)

theorem dropWhile_of_head (h : text.head?.any drops = false) : text.dropWhile drops = text := by
  cases text with
  | nil => rfl
  | cons c text =>
    have hc : drops c = false := h
    rw [dropWhile_cons, hc]
    rfl

/-- `trimBoth` leaves a text that is `Firm`, whatever surrounds it and is dropped. -/
theorem trimBoth_enclosed (left right : List Char) (hleft : ∀ c ∈ left, drops c)
    (hright : ∀ c ∈ right, drops c) (h : Firm drops text) :
    trimBoth drops (left ++ text ++ right) = text := by
  have hreverse : ∀ c ∈ right.reverse, drops c := by
    intro c hc
    exact hright c (mem_reverse.mp hc)
  unfold trimBoth
  rw [append_assoc, dropWhile_append_of_pos hleft]
  by_cases hempty : text = []
  · subst hempty
    have hall : right.dropWhile drops = [] := dropWhile_eq_nil_iff.mpr hright
    rw [nil_append, hall]
    rfl
  · have hhead : (text ++ right).head?.any drops = false := by
      rw [head?_append_of_ne_nil _ hempty]
      exact h.head
    have hlast : text.reverse.head?.any drops = false := by
      rw [head?_reverse]
      exact h.last
    rw [dropWhile_of_head hhead, reverse_append, dropWhile_append_of_pos hreverse,
      dropWhile_of_head hlast, reverse_reverse]

/-- A text without white space at its ends is trimmed. -/
theorem Firm.trim {text : List Char} (h : Firm isBlank text) : trim text = text := by
  have htrim := trimBoth_enclosed [] [] (by simp) (by simp) h
  rwa [nil_append, append_nil] at htrim

theorem Firm.joinWith {drops : Char → Bool} {separator : List Char}
    (h : ∀ piece ∈ pieces, piece ≠ [] ∧ Firm drops piece) :
    Firm drops (joinWith separator pieces) := by
  induction pieces with
  | nil => exact ⟨rfl, rfl⟩
  | cons piece pieces ih =>
    obtain ⟨hne, hpiece⟩ := h piece mem_cons_self
    cases pieces with
    | nil => exact hpiece
    | cons piece' pieces =>
      have hrest := ih fun q hq => h q (mem_cons_of_mem _ hq)
      have hne' : Text.joinWith separator (piece' :: pieces) ≠ [] := by
        have hpiece' := (h piece' (by simp)).1
        cases pieces <;> simp [Text.joinWith, hpiece']
      rw [joinWith_cons_cons]
      constructor
      · rw [append_assoc, head?_append_of_ne_nil _ hne]
        exact hpiece.head
      · rw [getLast?_append_of_ne_nil _ hne']
        exact hrest.last

/-- `splitAt` commas, a list is cut before the space that follows each of them. -/
theorem splitAt_joinWith_cons {lead : List Char} (hlead : ',' ∉ lead) (hpiece : ',' ∉ piece)
    (piece' : List Char) (pieces : List (List Char)) (trail : List Char) :
    splitAt ',' (lead ++ joinWith [',', ' '] (piece :: piece' :: pieces) ++ trail) =
      (lead ++ piece) ::
        splitAt ',' ([' '] ++ joinWith [',', ' '] (piece' :: pieces) ++ trail) := by
  have hsplit : lead ++ joinWith [',', ' '] (piece :: piece' :: pieces) ++ trail =
      (lead ++ piece) ++ ',' :: ([' '] ++ joinWith [',', ' '] (piece' :: pieces) ++ trail) := by
    simp [joinWith_cons_cons]
  rw [hsplit, splitAt_append, splitAt_of_not_mem (by simp [hlead, hpiece])]
  rfl

theorem splitAt_joinWith_comma (h : ∀ q ∈ piece :: pieces, ',' ∉ q) :
    splitAt ',' (joinWith [',', ' '] (piece :: pieces)) = piece :: pieces.map (' ' :: ·) := by
  have hall : ∀ lead : List Char, ',' ∉ lead →
      splitAt ',' (lead ++ joinWith [',', ' '] (piece :: pieces) ++ []) =
        (lead ++ piece) :: pieces.map (' ' :: ·) := by
    induction pieces generalizing piece with
    | nil =>
      intro lead hlead
      rw [joinWith, append_nil]
      exact splitAt_of_not_mem (by simp [hlead, h piece mem_cons_self])
    | cons piece' pieces ih =>
      intro lead hlead
      rw [splitAt_joinWith_cons hlead (h piece mem_cons_self),
        ih (fun q hq => h q (mem_cons_of_mem _ hq)) [' '] (by decide)]
      rfl
  have hnone := hall [] not_mem_nil
  rwa [nil_append, append_nil] at hnone

/-- `commaList` reads a list back, also with white space around it. -/
theorem commaList_enclosed (h : ∀ piece ∈ pieces, piece ≠ [] ∧ ',' ∉ piece ∧ Firm isBlank piece)
    {lead trail : List Char} (hlead : ∀ c ∈ lead, isBlank c) (htrail : ∀ c ∈ trail, isBlank c) :
    commaList (lead ++ joinWith [',', ' '] pieces ++ trail) = pieces := by
  have hcomma : ∀ {gap : List Char}, (∀ c ∈ gap, isBlank c) → ',' ∉ gap :=
    fun hgap hmem => absurd (hgap ',' hmem) (by decide)
  have hone : ∀ {lead piece : List Char}, (∀ c ∈ lead, isBlank c) → ',' ∉ piece →
      Firm isBlank piece → (splitAt ',' (lead ++ piece ++ trail)).map trim = [piece] := by
    intro lead piece hlead hpiece hfirm
    have htrim : trim (lead ++ piece ++ trail) = piece :=
      trimBoth_enclosed lead trail hlead htrail hfirm
    rw [splitAt_of_not_mem (by simp [hcomma hlead, hcomma htrail, hpiece]), map_singleton, htrim]
  cases pieces with
  | nil =>
    rw [commaList, joinWith, hone hlead not_mem_nil ⟨rfl, rfl⟩]
    rfl
  | cons piece pieces =>
    have hmap : (splitAt ',' (lead ++ joinWith [',', ' '] (piece :: pieces) ++ trail)).map trim =
        piece :: pieces := by
      induction pieces generalizing piece lead with
      | nil =>
        obtain ⟨-, hpiece, hfirm⟩ := h piece mem_cons_self
        exact hone hlead hpiece hfirm
      | cons piece' pieces ih =>
        obtain ⟨-, hpiece, hfirm⟩ := h piece mem_cons_self
        have htrim : trim (lead ++ piece ++ []) = piece :=
          trimBoth_enclosed lead [] hlead (by simp) hfirm
        rw [append_nil] at htrim
        rw [splitAt_joinWith_cons (hcomma hlead) hpiece, map_cons, htrim,
          ih (by decide) piece' fun q hq => h q (mem_cons_of_mem _ hq)]
    rw [commaList, hmap, filter_eq_self]
    intro q hq
    simpa using (h q hq).1

theorem commaList_joinWith (h : ∀ piece ∈ pieces, piece ≠ [] ∧ ',' ∉ piece ∧ Firm isBlank piece) :
    commaList (joinWith [',', ' '] pieces) = pieces := by
  have hlist := @commaList_enclosed pieces h [] [] (by simp) (by simp)
  rwa [nil_append, append_nil] at hlist

theorem toNat_of_isAsciiWord (h : isAsciiWord c) : 0x30 ≤ c.toNat ∧ c.toNat ≤ 0x7a := by
  simp only [isAsciiWord, isAsciiLetter, isAsciiDigit, Bool.or_eq_true, Bool.and_eq_true,
    decide_eq_true_eq, beq_iff_eq, Char.le_def, UInt32.le_iff_toNat_le] at h
  have hcode : c.toNat = c.val.toNat := rfl
  rcases h with ((⟨hlow, hhigh⟩ | ⟨hlow, hhigh⟩) | ⟨hlow, hhigh⟩) | rfl
  · simp at hlow hhigh
    omega
  · simp at hlow hhigh
    omega
  · simp at hlow hhigh
    omega
  · decide

/-- No ASCII word character is white space. -/
theorem isBlank_of_isAsciiWord (h : isAsciiWord c) : isBlank c = false := by
  have hrange := toNat_of_isAsciiWord h
  rw [Bool.eq_false_iff]
  intro hblank
  simp only [isBlank, Bool.or_eq_true, Bool.and_eq_true, decide_eq_true_eq, beq_iff_eq] at hblank
  omega

end Text

namespace Outline

open Pattern Text

/-! ## Signatures as written -/

/-- An ASCII identifier. -/
structure Identifier where
  text : List Char
  begins : text.head?.any beginsName = true
  word : ∀ c ∈ text, isAsciiWord c = true

def Identifier.f : Identifier :=
  ⟨['f'], by decide, by decide⟩

/-- Characters of a token: neither white space nor a comma nor a parenthesis. -/
def isTokenChar (c : Char) : Bool :=
  !isBlank c && notAmong ",()" c

structure Token where
  text : List Char
  ne_nil : text ≠ []
  plain : ∀ c ∈ text, isTokenChar c = true

/-- A parameter: one token or several. -/
structure Parameter where
  first : Token
  more : List Token

/-- A parameter as written, with one space between tokens. -/
def Parameter.text (p : Parameter) : List Char :=
  joinWith [' '] ((p.first :: p.more).map Token.text)

/-- A name with parameters. -/
structure Signature where
  name : Identifier
  params : List Parameter

/-- The parameters as written, with a comma and a space between them. -/
def Signature.paramText (d : Signature) : List Char :=
  joinWith [',', ' '] (d.params.map Parameter.text)

def Signature.text (d : Signature) : List Char :=
  d.name.text ++ ('(' :: d.paramText ++ [')'])

def Signature.function (d : Signature) : Function :=
  ⟨String.ofList d.name.text, d.params.map fun p => String.ofList p.text⟩

def spaced (word : String) : List Char :=
  word.toList ++ [' ']

theorem spaced_ne_nil (word : String) : spaced word ≠ [] := by
  simp [spaced]

/-- A word from a list of words that may stand before a declaration. -/
structure Modifier (allowed : List String) where
  word : String
  mem : word ∈ allowed

/-- A modifier as written, with the space after it. -/
def Modifier.text {allowed : List String} (m : Modifier allowed) : List Char :=
  spaced m.word

/-- Words that modifiers may be: of ASCII letters and digits, and none begins another. -/
structure AreWords (words : List String) : Prop where
  word : ∀ w ∈ words, w.toList ≠ [] ∧ ∀ c ∈ w.toList, isAsciiWord c = true
  apart : ∀ v ∈ words, ∀ w ∈ words, w ≠ v → ¬ w.toList <+: v.toList ∧ ¬ v.toList <+: w.toList

variable (i : Identifier)

theorem Identifier.ne_nil : i.text ≠ [] := by
  intro h
  have := i.begins
  rw [h] at this
  cases this

theorem Identifier.isBlank_eq_false (hc : c ∈ i.text) : isBlank c = false :=
  isBlank_of_isAsciiWord (i.word c hc)

theorem isBlank_of_isTokenChar (h : isTokenChar c) : isBlank c = false := by
  rw [isTokenChar, Bool.and_eq_true, Bool.not_eq_true'] at h
  exact h.1

theorem Parameter.mem_text {p : Parameter} (h : c ∈ p.text) : isTokenChar c ∨ c = ' ' := by
  rcases mem_joinWith h with hspace | ⟨piece, hpiece, hc⟩
  · exact .inr (mem_singleton.mp hspace)
  · obtain ⟨token, -, rfl⟩ := mem_map.mp hpiece
    exact .inl (token.plain c hc)

theorem Parameter.text_ne_nil (p : Parameter) : p.text ≠ [] := by
  have hfirst := p.first.ne_nil
  cases hmore : p.more with
  | nil => simpa [Parameter.text, hmore, joinWith] using hfirst
  | cons token more => simp [Parameter.text, hmore, joinWith]

theorem Parameter.firm_text (p : Parameter) : Firm isBlank p.text := by
  refine Firm.joinWith fun piece hpiece => ?_
  obtain ⟨token, -, rfl⟩ := mem_map.mp hpiece
  exact ⟨token.ne_nil, .of_forall fun c hc => isBlank_of_isTokenChar (token.plain c hc)⟩

/-- `paramList` reads the parameters of a written signature back. -/
theorem paramList_paramText (d : Signature) : paramList d.paramText = d.function.params := by
  have hpieces : ∀ piece ∈ d.params.map Parameter.text,
      piece ≠ [] ∧ ',' ∉ piece ∧ Firm isBlank piece := by
    intro piece hpiece
    obtain ⟨p, -, rfl⟩ := mem_map.mp hpiece
    refine ⟨p.text_ne_nil, fun hcomma => ?_, p.firm_text⟩
    rcases p.mem_text hcomma with h | h
    · exact absurd h (by decide)
    · exact absurd h (by decide)
  rw [paramList, Signature.paramText, commaList_joinWith hpieces, map_map]
  rfl

variable {d : Signature} {β : Type} {p : Pattern} {line close : List Char}
  {heads : List (List Char)} {meaning : Match → β}

theorem Signature.mem_paramText (h : c ∈ d.paramText) : isTokenChar c ∨ c = ' ' ∨ c = ',' := by
  rcases mem_joinWith h with hsep | ⟨piece, hpiece, hc⟩
  · simp only [mem_cons, not_mem_nil, or_false] at hsep
    exact .inr hsep.symm
  · obtain ⟨p, -, rfl⟩ := mem_map.mp hpiece
    rcases p.mem_text hc with h | h
    · exact .inl h
    · exact .inr (.inl h)

/-- No parenthesis stands between those around the parameters. -/
theorem Signature.notAmong_parens (h : c ∈ d.paramText) : among "()" c = false := by
  rcases d.mem_paramText h with h | rfl | rfl
  · have hparens : c ≠ '(' ∧ c ≠ ')' := by
      constructor
      · rintro rfl
        exact absurd h (by decide)
      · rintro rfl
        exact absurd h (by decide)
    simp [among, hparens]
  · decide
  · decide

/-- A signature holds no white space but spaces. -/
theorem Signature.eq_space_of_mem (h : c ∈ d.text) (hblank : isBlank c) : c = ' ' := by
  simp only [Signature.text, mem_append, mem_cons, not_mem_nil, or_false] at h
  rcases h with hname | (rfl | hparam) | rfl
  · rw [d.name.isBlank_eq_false hname] at hblank
    cases hblank
  · exact absurd hblank (by decide)
  · rcases d.mem_paramText hparam with htoken | hspace | rfl
    · rw [isBlank_of_isTokenChar htoken] at hblank
      cases hblank
    · exact hspace
    · exact absurd hblank (by decide)
  · exact absurd hblank (by decide)

/-! ## Reading a signature -/

variable {bound : Nat} {next : State → Option State} {s : State} {rest : List Char}

theorem Identifier.head?_isBlank (rest : List Char) :
    (i.text ++ rest).head?.any isBlank = false := by
  obtain ⟨c, more, hc⟩ := exists_cons_of_ne_nil i.ne_nil
  have hmem : c ∈ i.text := by rw [hc]; exact mem_cons_self
  rw [hc]
  exact i.isBlank_eq_false hmem

theorem Identifier.leads (index : Nat) {accepts : Char → Bool}
    (haccepts : ∀ c, isAsciiWord c → accepts c) (hrest : rest.head?.any accepts = false) :
    (group index (one beginsName ++ many accepts)).Leads bound i.text rest [(index, i.text)] := by
  obtain ⟨text, hbegins, hword⟩ := i
  cases text with
  | nil => cases hbegins
  | cons c text =>
    have hmore : ∀ d ∈ text, accepts d :=
      fun d hd => haccepts d (hword d (mem_cons_of_mem _ hd))
    exact ((Leads.one hbegins _).append (.many hmore hrest)).group index

theorem Signature.head?_isBlank (d : Signature) (rest : List Char) :
    (d.text ++ rest).head?.any isBlank = false := by
  rw [Signature.text, append_assoc]
  exact d.name.head?_isBlank _

section AreWords

variable {words : List String} (hwords : AreWords words) (m : Modifier words)

include hwords

theorem AreWords.noneBegins : noneBegins words := by
  refine all_eq_true.mpr fun w hw => all_eq_true.mpr fun v hv => ?_
  by_cases hne : w = v
  · simp [hne]
  · have hapart := (hwords.apart v hv w hw hne).1
    rw [Bool.or_eq_true, Bool.not_eq_true', Bool.eq_false_iff, Ne, isPrefixOf_iff_prefix]
    exact .inr hapart

theorem AreWords.head?_isBlank (rest : List Char) : (m.text ++ rest).head?.any isBlank = false := by
  obtain ⟨hne, hword⟩ := hwords.word m.word m.mem
  obtain ⟨c, more, hc⟩ := exists_cons_of_ne_nil hne
  have hmem : c ∈ m.word.toList := by rw [hc]; exact mem_cons_self
  rw [Modifier.text, spaced, hc]
  exact isBlank_of_isAsciiWord (hword c hmem)

theorem AreWords.eq_space_of_mem (hc : c ∈ m.text) (hblank : isBlank c) : c = ' ' := by
  rw [Modifier.text, spaced, mem_append, mem_singleton] at hc
  rcases hc with hc | hc
  · rw [isBlank_of_isAsciiWord ((hwords.word m.word m.mem).2 c hc)] at hblank
    cases hblank
  · exact hc

end AreWords

/-- `margin` takes nothing of a line whose text begins at once. -/
theorem advance_margin (hstart : s.cursor.AtLineStart)
    (hblank : s.cursor.rest.head?.any isBlank = false) : advance bound margin next s = next s := by
  rw [margin, advance_append, advance_lineStart hstart, blanks, advance_many_of_stops hblank]

theorem leads_spaced (word : String) (hblank : rest.head?.any isBlank = false) :
    (lit word ++ blanks1).Leads bound (spaced word) rest [] :=
  (Leads.lit word _).append (.space hblank)

/-- `optWord` takes one of several words that may stand before a declaration. -/
theorem leads_optWord {words : List String} (hwords : AreWords words) (m : Modifier words)
    (hblank : rest.head?.any isBlank = false) : (optWord words).Leads bound m.text rest [] := by
  refine (Leads.oneOf (mem_map.mpr ⟨m.word, m.mem, rfl⟩) (leads_spaced m.word hblank) ?_).opt
  intro q hq hne
  obtain ⟨w, hw, rfl⟩ := mem_map.mp hq
  refine (FailsAt.lit fun hword => hne ?_).append _
  rw [Modifier.text, spaced, append_assoc] at hword
  rw [eq_of_mem_of_begins hwords.noneBegins m.mem hw hword]

/-- `parenthesised` takes and remembers parameters in parentheses. -/
theorem leads_parenthesised {inner : List Char} (hinner : ')' ∉ inner) (index : Nat)
    (rest : List Char) :
    (parenthesised index).Leads bound ('(' :: inner ++ [')']) rest [(index, inner)] := by
  have hclass : ∀ c ∈ inner, notAmong ")" c := by
    intro c hc
    have hne : c ≠ ')' := fun h => hinner (h ▸ hc)
    simp [notAmong, hne]
  exact ((Leads.lit "(" _).append ((Leads.many hclass rfl).group index)).append (.lit ")" rest)

/-- **A signature is read** by a class that its name is of, and parameters in parentheses. -/
theorem leads_signature (d : Signature) {accepts : Char → Bool}
    (hword : ∀ c, isAsciiWord c → accepts c) (hparen : accepts '(' = false) (rest : List Char) :
    (group 1 (many1 accepts) ++ blanks ++ parenthesised 2).Leads bound d.text rest
      [(2, d.paramText), (1, d.name.text)] := by
  have hinner : ')' ∉ d.paramText := fun hmem => absurd (d.notAmong_parens hmem) (by decide)
  -- no white space stands between the name and the parentheses
  have hopen : ([] ++ ('(' :: d.paramText ++ [')'] ++ rest)).head?.any accepts = false := hparen
  have hleads : (group 1 (many1 accepts) ++ blanks ++ parenthesised 2).Leads bound
      (d.name.text ++ [] ++ ('(' :: d.paramText ++ [')'])) rest _ :=
    (((Leads.many1 d.name.ne_nil (fun c hc => hword c (d.name.word c hc)) hopen).group 1).append
      (.many (by simp) rfl)).append (leads_parenthesised hinner 2 rest)
  rwa [append_nil] at hleads

/-- The function that a match of a name and parameters means. -/
def functionOf (m : Match) : Function :=
  ⟨String.ofList (m.group 1), paramList (m.group 2)⟩

theorem functionOf_eq (d : Signature) {m : Match}
    (h : ∀ index, m.group? index = [(2, d.paramText), (1, d.name.text)].lookup index) :
    functionOf m = d.function := by
  rw [functionOf, Match.group, Match.group, h, h]
  exact congrArg (Function.mk _) (paramList_paramText d)

theorem readsLine_of_leads {q : Pattern} {b : β} {taken stop : List Char}
    {groups : List (Nat × List Char)}
    (hp : ∀ bound s, advance bound p some s = advance bound margin (advance bound q some) s)
    (hne : taken ≠ []) (hblank : taken.head?.any isBlank = false)
    (h : ∀ bound rest, q.Leads bound taken (stop ++ rest) groups)
    (hmeaning : ∀ m : Match, (∀ index, m.group? index = groups.lookup index) → meaning m = b) :
    ReadsLine p meaning (taken ++ stop) (some b) := by
  intro bound c rest hstart hrest
  rw [append_assoc] at hrest
  have hhead : c.rest.head?.any isBlank = false := by
    rw [hrest, head?_append_of_ne_nil _ hne]
    exact hblank
  obtain ⟨m, hmatch, -, hstop, -, hgroups⟩ := (h bound rest).matchAt? hrest
  refine ⟨m, taken, stop, rfl, hne, ?_, hstop, hmeaning m hgroups⟩
  rw [← hmatch, matchAt?_eq, matchAt?_eq, hp, advance_margin hstart hhead]

theorem readsLine_of_failsAt {β : Type} {p q : Pattern} {meaning : Match → β} {line : List Char}
    (hp : ∀ bound s, advance bound p some s = advance bound margin (advance bound q some) s)
    (hne : line ≠ []) (hblank : line.head?.any isBlank = false)
    (h : ∀ rest, q.FailsAt (line ++ rest)) : ReadsLine p meaning line none := by
  intro bound c rest hstart hrest
  have hhead : c.rest.head?.any isBlank = false := by
    rw [hrest, head?_append_of_ne_nil _ hne]
    exact hblank
  refine matchAt?_eq_none_iff.mpr ?_
  rw [hp, advance_margin hstart hhead]
  exact h rest bound some ⟨c, []⟩ hrest

/-! ## Declarations one after another -/

theorem readsLine_none_of_refuses {d : Char} (h : p.Refuses (some d)) :
    ReadsLine p meaning (d :: line) none := by
  intro bound c rest _ hrest
  exact Refuses.matchAt? (by rw [hrest]; exact h)

/-- A line that is not empty and holds no white space but spaces. -/
structure OneLine (line : List Char) : Prop where
  ne_nil : line ≠ []
  spaces : ∀ c ∈ line, isBlank c = true → c = ' '

theorem OneLine.not_mem (h : OneLine line) (hblank : isBlank c) (hc : c ≠ ' ') : c ∉ line := by
  intro hmem
  exact hc (h.spaces c hmem hblank)

theorem OneLine.of_signature (d : Signature) {lead trail : List Char}
    (hlead : ∀ c ∈ lead, isBlank c → c = ' ') (htrail : ∀ c ∈ trail, isBlank c → c = ' ') :
    OneLine (lead ++ d.text ++ trail) := by
  constructor
  · have hne := d.name.ne_nil
    simp [Signature.text, hne]
  · intro c hc hblank
    rw [mem_append, mem_append] at hc
    rcases hc with (hc | hc) | hc
    · exact hlead c hc hblank
    · exact d.eq_space_of_mem hc hblank
    · exact htrail c hc hblank

theorem oneLine_brace : OneLine ['\x7d'] :=
  ⟨by decide, by decide⟩

/-- Declarations one after another: each has a line of its own and a closing line after it. -/
def declarationsText (close : List Char) (heads : List (List Char)) (ended : Bool) : List Char :=
  linesText (heads.flatMap fun head => [head, close]) ended

theorem mem_declarationsText {ended : Bool} (h : c ∈ declarationsText close heads ended) :
    c = '\n' ∨ c ∈ close ∨ ∃ head ∈ heads, c ∈ head := by
  rw [declarationsText, linesText, mem_append] at h
  rcases h with h | h
  · rcases mem_joinWith h with hfeed | ⟨line, hline, hc⟩
    · exact .inl (mem_singleton.mp hfeed)
    · obtain ⟨head, hhead, hmem⟩ := mem_flatMap.mp hline
      simp only [mem_cons, not_mem_nil, or_false] at hmem
      rcases hmem with rfl | rfl
      · exact .inr (.inr ⟨line, hhead, hc⟩)
      · exact .inr (.inl hc)
  · cases ended with
    | false => cases h
    | true => exact .inl (mem_singleton.mp h)

theorem return_not_mem_declarationsText (hclose : OneLine close)
    (hheads : ∀ head ∈ heads, OneLine head) (ended : Bool) :
    '\r' ∉ declarationsText close heads ended := by
  intro hmem
  rcases mem_declarationsText hmem with h | h | ⟨head, hhead, hc⟩
  · exact absurd h (by decide)
  · exact hclose.not_mem (by decide) (by decide) h
  · exact (hheads head hhead).not_mem (by decide) (by decide) hc

/-- **The declarations of `declarationsText`** that the pattern reads are found, in order. -/
theorem findAll_declarationsText {α : Type} {head : α → List Char} {out : α → Option β}
    (hp : Anchored p) (hend : p.Refuses none) (hempty : p.findAll ['\n'] = [])
    (hhead : ∀ d, ReadsLine p meaning (head d) (out d)) (hclose : ReadsLine p meaning close none)
    (hline : ∀ d, OneLine (head d)) (hline' : OneLine close) (ds : List α) (ended : Bool) :
    (p.findAll (declarationsText close (ds.map head) ended)).map meaning = ds.filterMap out := by
  rw [declarationsText, flatMap_map]
  -- a text without declarations is empty or one line break
  cases ds with
  | nil =>
    cases ended with
    | false =>
      show (p.findAll []).map meaning = []
      rw [findAll_eq_searchFrom, searchFrom_of_refuses rfl hend]
      rfl
    | true =>
      show (p.findAll ['\n']).map meaning = []
      rw [hempty]
      rfl
  | cons first others =>
    generalize hds : first :: others = ds
    have hreads : Forall₂ (ReadsLine p meaning) (ds.flatMap fun d => [head d, close])
        (ds.flatMap fun d => [out d, none]) := by
      clear hds
      induction ds with
      | nil => exact .nil
      | cons d ds ih => exact .cons (hhead d) (.cons hclose ih)
    have hlines : ∀ line ∈ ds.flatMap fun d => [head d, close], line ≠ [] ∧ '\n' ∉ line := by
      intro line hmem
      obtain ⟨d, -, hd⟩ := mem_flatMap.mp hmem
      simp only [mem_cons, not_mem_nil, or_false] at hd
      rcases hd with rfl | rfl
      · exact ⟨(hline d).ne_nil, (hline d).not_mem (by decide) (by decide)⟩
      · exact ⟨hline'.ne_nil, hline'.not_mem (by decide) (by decide)⟩
    rw [findAll_lines hp hend hreads hlines (by simp [← hds])]
    clear hds hreads hlines
    induction ds with
    | nil => rfl
    | cons d ds ih =>
      rw [flatMap_cons, filterMap_cons]
      cases out d <;> simpa [reduceOption] using ih

end Outline

end CodeAtlas
