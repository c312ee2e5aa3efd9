import CodeAtlas.Outline.C
import CodeAtlas.Proofs.Words

/-!
# C prototypes

A prototype is a line: a result type, a space, perhaps stars, a name with its parameters and a
semicolon. The result type of a function is read eagerly, as words, stars and white space, and white
space must follow it. It has two characters at least and stars are no part of a name, so a star
before the name and a type of one character hide the function (`plain_of_spells`). All other
prototypes are read back, each from its own line (`functions_read_back_iff`).
-/

open List

open CodeAtlas.Outline

namespace CodeAtlas.C

open Pattern Text

variable {bound : Nat} {rest after : List Char}

/-- A prototype in parts. No semicolon and no opening brace stands in its parameters. -/
structure PrototypeText where
  result : Identifier
  stars : Nat
  signature : Signature
  closed : ∀ c ∈ signature.paramText, notAmong ";\x7b" c = true

namespace PrototypeText

variable (p : PrototypeText)

def declarator : List Char :=
  replicate p.stars '*' ++ p.signature.name.text

def line : List Char :=
  p.result.text ++ ' ' :: (p.declarator ++ ('(' :: (p.signature.paramText ++ [')', ';'])))

def prototype : Prototype :=
  ⟨p.signature.function.name, String.ofList p.result.text, p.signature.function.params⟩

/-- A result type of two characters at least, and no stars. -/
def IsPlain : Prop :=
  p.stars = 0 ∧ 2 ≤ p.result.text.length

instance : Decidable p.IsPlain :=
  inferInstanceAs (Decidable (_ ∧ _))

theorem eq_star_or_word {c : Char} (h : c ∈ p.declarator) : c = '*' ∨ isAsciiWord c := by
  rcases mem_append.mp h with h | h
  · exact .inl (eq_of_mem_replicate h)
  · exact .inr (p.signature.name.word c h)

theorem isBlank_eq_false {c : Char} (h : c ∈ p.declarator) : isBlank c = false := by
  rcases p.eq_star_or_word h with rfl | h
  · decide
  · exact isBlank_of_isAsciiWord h

theorem declarator_ne_nil : p.declarator ≠ [] :=
  append_ne_nil_of_right_ne_nil _ p.signature.name.ne_nil

theorem line_ne_nil : p.line ≠ [] := by
  simp [line]

theorem feed_not_mem_line : '\n' ∉ p.line := by
  intro h
  simp only [line, mem_append, mem_cons, not_mem_nil, or_false] at h
  rcases h with h | h | h | h | h | h | h
  · exact absurd (p.result.isBlank_eq_false h) (by decide)
  · exact absurd h (by decide)
  · exact absurd (p.isBlank_eq_false h) (by decide)
  · exact absurd h (by decide)
  · rcases p.signature.mem_paramText h with h | h | h
    · exact absurd (isBlank_of_isTokenChar h) (by decide)
    · exact absurd h (by decide)
    · exact absurd h (by decide)
  · exact absurd h (by decide)
  · exact absurd h (by decide)

end PrototypeText

/-! ## One line -/

/-- A name, parameters and what ends them. -/
def declaratorPattern : Pattern :=
  group 2 (one beginsName ++ many isAsciiWord) ++ (blanks ++ (lit "(" ++
    (group 3 (many (notAmong ";\x7b)")) ++ (lit ")" ++ (blanks ++ anyOf [";", "\x7b"])))))

/-- A function behind the margin of its line. -/
def bodyPattern : Pattern :=
  group 1 (one beginsName ++ many1 isTypeChar) ++ (blanks1 ++ declaratorPattern)

theorem isAsciiWord_of_beginsName {c : Char} (h : beginsName c) : isAsciiWord c := by
  rcases Bool.or_eq_true_iff.mp h with h | h <;> simp [isAsciiWord, h]

theorem isTypeChar_of_isAsciiWord {c : Char} (h : isAsciiWord c) : isTypeChar c := by
  simp [isTypeChar, h]

theorem isTypeChar_of_isBlank {c : Char} (h : isBlank c) : isTypeChar c := by
  simp [isTypeChar, h]

theorem leads_declaratorPattern (d : Signature) (h : ∀ c ∈ d.paramText, notAmong ";\x7b" c) :
    declaratorPattern.Leads bound (d.name.text ++ ('(' :: (d.paramText ++ [')', ';']))) rest
      [(3, d.paramText), (2, d.name.text)] := by
  have hparams : ∀ c ∈ d.paramText, notAmong ";\x7b)" c := by
    intro c hc
    have hparen := d.notAmong_parens hc
    have hend := h c hc
    simp [among] at hparen
    simp [notAmong] at hend
    simp [notAmong, hparen, hend]
  have hblanks : ∀ {b : Char} {rest : List Char}, isBlank b = false →
      blanks.Leads bound [] (b :: rest) [] := fun hb => .many (by simp) hb
  have hend : (anyOf [";", "\x7b"]).Leads bound [';'] rest [] :=
    .anyOf (by decide) mem_cons_self rest
  exact (d.name.leads 2 (fun _ h => h) rfl).append ((hblanks rfl).append ((Leads.lit "(" _).append
    (((Leads.many hparams rfl).group 3).append ((Leads.lit ")" _).append
      ((hblanks rfl).append hend)))))

/-- `bodyPattern` takes a plain prototype: its type ends at the only white space before the
parentheses. -/
theorem leads_bodyPattern {p : PrototypeText} (h : p.IsPlain) : bodyPattern.Leads bound p.line rest
      [(3, p.signature.paramText), (2, p.signature.name.text), (1, p.result.text)] := by
  obtain ⟨⟨text, hbegins, hword⟩, stars, d, hclosed⟩ := p
  obtain ⟨rfl, hlength⟩ : stars = 0 ∧ 2 ≤ text.length := h
  cases text with
  | nil => cases hbegins
  | cons c gap =>
    have hne : gap ≠ [] := by
      rintro rfl
      simp at hlength
    have hgap : ∀ e ∈ gap, isTypeChar e :=
      fun e he => isTypeChar_of_isAsciiWord (hword e (mem_cons_of_mem _ he))
    have hblank : (d.name.text ++ ('(' :: (d.paramText ++ [')', ';'])) ++ rest).head?.any isBlank =
        false := by
      rw [append_assoc]
      exact d.name.head?_isBlank _
    have htail : (blanks1 ++ declaratorPattern).Leads bound _ rest _ :=
      (Leads.space hblank).append (leads_declaratorPattern d hclosed)
    refine htail.group_eager hbegins hne hgap fun z left hz hne' haccepts => ?_
    refine FailsAt.append (.of_refuses ?_) _
    -- what the type could take behind the space is a part of the name
    obtain ⟨e, z, rfl⟩ := exists_cons_of_ne_nil hne'
    have hsplit : d.name.text ++ '(' :: (d.paramText ++ [')', ';'] ++ rest) = z ++ left := by
      have hz := (cons.inj hz).2
      simpa using hz
    obtain ⟨more, hname, rfl⟩ := exists_append_of_append_eq hsplit.symm
      (fun e he => haccepts e (mem_cons_of_mem _ he)) (by decide)
    cases more with
    | nil => exact ⟨rfl, rfl⟩
    | cons e more =>
      have he := d.name.isBlank_eq_false (c := e) (by simp [hname])
      exact .of_heads rfl (show ∀ a ∈ [isBlank], a e = false by simp [he])

/-- Before the parentheses a line has one white space character. What ends before it has two
characters, and what begins behind it begins a name. -/
theorem plain_of_split {p : PrototypeText} {c d : Char} {x b n b' : List Char} (hx : x ≠ [])
    (hb : b ≠ []) (hblank : ∀ e ∈ b, isBlank e) (hd : beginsName d)
    (hn : ∀ e ∈ n, isAsciiWord e) (hblank' : ∀ e ∈ b', isBlank e)
    (h : p.result.text ++ ' ' :: p.declarator = c :: (x ++ (b ++ d :: (n ++ b')))) : p.IsPlain := by
  have hsolid : ∀ e ∈ p.declarator, (!isBlank e) :=
    fun e he => by rw [p.isBlank_eq_false he]; rfl
  have hsolid' : ∀ e ∈ d :: n, (!isBlank e) := by
    intro e he
    have hword : isAsciiWord e := by
      rcases mem_cons.mp he with rfl | he
      · exact isAsciiWord_of_beginsName hd
      · exact hn e he
    rw [isBlank_of_isAsciiWord hword]
    rfl
  -- the declarator holds no blank, so the last blank of the text divides it off
  have hnone : b' = [] := by
    rcases eq_nil_or_concat b' with hb' | ⟨front, e, rfl⟩
    · exact hb'
    · have hsplit : p.result.text ++ ' ' :: p.declarator =
          (c :: (x ++ (b ++ d :: (n ++ front)))) ++ e :: [] := by
        simpa using h
      have he := hblank' e (by simp)
      obtain ⟨-, -, hempty⟩ := append_cons_inj_last hsplit hsolid (by simp) (by decide) (by simp [he])
      exact absurd hempty p.declarator_ne_nil
  obtain ⟨front, e, rfl⟩ := eq_nil_or_concat b |>.resolve_left hb
  have hsplit : p.result.text ++ ' ' :: p.declarator = (c :: (x ++ front)) ++ e :: (d :: n) := by
    simpa [hnone] using h
  have he := hblank e (by simp)
  obtain ⟨hresult, -, hname⟩ := append_cons_inj_last hsplit hsolid hsolid' (by decide) (by simp [he])
  constructor
  · cases hstars : p.stars with
    | zero => rfl
    | succ stars =>
      rw [PrototypeText.declarator, hstars] at hname
      obtain rfl : '*' = d := (cons.inj hname).1
      exact absurd hd (by decide)
  · have hlength := length_pos_iff.mpr hx
    rw [hresult, length_cons, length_append]
    omega

/-- `bodyPattern` spells the line of a prototype only if it `IsPlain`. -/
theorem plain_of_spells {p : PrototypeText} {taken : List Char} {groups : List (Nat × List Char)}
    (h : bodyPattern.Spells taken groups) (hrest : p.line ++ rest = taken ++ after) : p.IsPlain := by
  simp [bodyPattern, declaratorPattern, Spells] at h
  obtain ⟨c, x, ⟨hc, hx, hx'⟩, b, d, n, b', params, -, tail,
    ⟨⟨hb, hblank⟩, ⟨hd, hn⟩, hblank', -⟩, rfl, -⟩ := h
  have hsplit : (p.result.text ++ ' ' :: p.declarator) ++ '(' :: (p.signature.paramText ++
      [')', ';'] ++ rest) = (c :: (x ++ (b ++ d :: (n ++ b')))) ++ '(' :: (params ++ ')' :: tail ++
        after) := by
    simpa [PrototypeText.line] using hrest
  -- on either side the first parenthesis ends what a type may be made of
  have hline : ∀ e ∈ p.result.text ++ ' ' :: p.declarator, isTypeChar e := by
    intro e he
    simp only [mem_append, mem_cons] at he
    rcases he with he | rfl | he
    · exact isTypeChar_of_isAsciiWord (p.result.word e he)
    · rfl
    · rcases p.eq_star_or_word he with rfl | he
      · rfl
      · exact isTypeChar_of_isAsciiWord he
  have htaken : ∀ e ∈ c :: (x ++ (b ++ d :: (n ++ b'))), isTypeChar e := by
    intro e he
    simp only [mem_append, mem_cons] at he
    rcases he with rfl | he | he | rfl | he | he
    · exact isTypeChar_of_isAsciiWord (isAsciiWord_of_beginsName hc)
    · exact hx' e he
    · exact isTypeChar_of_isBlank (hblank e he)
    · exact isTypeChar_of_isAsciiWord (isAsciiWord_of_beginsName hd)
    · exact isTypeChar_of_isAsciiWord (hn e he)
    · exact isTypeChar_of_isBlank (hblank' e he)
  exact plain_of_split hx hb hblank hd hn hblank'
    (append_cons_inj hsplit hline htaken (by decide) (by decide)).1

theorem failsAt_bodyPattern {p : PrototypeText} (h : ¬ p.IsPlain) (rest : List Char) :
    bodyPattern.FailsAt (p.line ++ rest) := by
  refine .of_ways fun bound s hrest t ht => h ?_
  obtain ⟨taken, groups, hspells, ⟨after, hsplit, -⟩, -⟩ := spells_of_mem_ways ht
  exact plain_of_spells hspells (hrest.symm.trans hsplit)

/-! ## Many lines -/

def prototypeOf (m : Match) : Prototype :=
  ⟨String.ofList (m.group 2), String.ofList (joinWith [' '] (words (m.group 1))),
    paramList (m.group 3)⟩

theorem PrototypeText.readsLine (p : PrototypeText) : ReadsLine functionPattern prototypeOf p.line
      (if decide p.IsPlain then some p.prototype else none) := by
  have hhead : p.line.head?.any isBlank = false := p.result.head?_isBlank _
  by_cases hplain : p.IsPlain
  · rw [if_pos (decide_eq_true hplain)]
    rw [← append_nil p.line]
    refine readsLine_of_leads (fun _ _ => rfl) p.line_ne_nil hhead
      (fun _ _ => leads_bodyPattern hplain) fun m hgroups => ?_
    have hword : IsOneWord p.result.text := ⟨p.result.ne_nil, fun _ => p.result.isBlank_eq_false⟩
    rw [prototypeOf, Match.group, Match.group, Match.group, hgroups, hgroups, hgroups]
    show Prototype.mk _ (String.ofList (joinWith [' '] (words p.result.text)))
      (paramList p.signature.paramText) = _
    rw [words_of_isOneWord hword, paramList_paramText]
    rfl
  · rw [if_neg (by simpa using hplain)]
    exact readsLine_of_failsAt (fun _ _ => rfl) p.line_ne_nil hhead (failsAt_bodyPattern hplain)

theorem functions_prototypes (ps : List PrototypeText) (ended : Bool) :
    functions (linesText (ps.map PrototypeText.line) ended) =
      (ps.filter (·.IsPlain)).map PrototypeText.prototype := by
  rw [functions]
  cases hps : ps with
  | nil => cases ended <;> decide +kernel
  | cons first others =>
    rw [← hps]
    have hreads : Forall₂ (ReadsLine functionPattern prototypeOf) (ps.map PrototypeText.line)
        (ps.map fun p => if decide p.IsPlain then some p.prototype else none) := by
      rw [forall₂_map_left_iff, forall₂_map_right_iff, forall₂_same]
      exact fun p _ => p.readsLine
    have hlines : ∀ line ∈ ps.map PrototypeText.line, line ≠ [] ∧ '\n' ∉ line := by
      intro line hline
      obtain ⟨p, -, rfl⟩ := mem_map.mp hline
      exact ⟨p.line_ne_nil, p.feed_not_mem_line⟩
    have hfound := findAll_lines (anchored_of_lead rfl) ⟨rfl, rfl⟩ hreads hlines (by simp [hps])
      ended
    rw [reduceOption, filterMap_map] at hfound
    exact hfound.trans (filterMap_ite ..)

/-- **Prototypes are read back exactly if** none has stars and no result type is a single
character. -/
theorem functions_read_back_iff (ps : List PrototypeText) (ended : Bool) :
    (outline (linesText (ps.map PrototypeText.line) ended)).functions =
      ps.map PrototypeText.prototype ↔ ∀ p ∈ ps, p.stars = 0 ∧ 2 ≤ p.result.text.length := by
  show functions _ = _ ↔ ∀ p ∈ ps, p.IsPlain
  rw [functions_prototypes]
  constructor
  · intro hall p hp
    have hlength := congrArg length hall
    rw [length_map, length_map, length_filter_eq_length_iff] at hlength
    exact of_decide_eq_true (hlength p hp)
  · intro hplain
    rw [filter_eq_self.mpr fun p hp => decide_eq_true (hplain p hp)]

end CodeAtlas.C
