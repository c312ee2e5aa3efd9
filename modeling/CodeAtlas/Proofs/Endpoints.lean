import CodeAtlas.Proofs.Mappings

/-!
# Annotated methods

Where the pattern for endpoints matches, annotations stand and after them a declaration: words that
may be absent, a type, a name and parameters (`exists_declared`). After a mapping annotation there
is little choice in this, though the words before the type may be read in several ways: the head of
the declaration ends at the first character that no head has (`declared_of_note`), so a method is
found with its name and its parameters (`endpointsFrom_handler`), and an annotation of a class makes
no endpoint (`endpointsFrom_note`). What an endpoint reports as its result is not its type but its
name (`endpoints_result`).
-/

open List

namespace CodeAtlas

open Pattern Outline Text

namespace Java

variable {bound : Nat} {s t u : State}

/-! ## Declarations after annotations -/

/-- Characters that may stand before the parameters of a method. -/
def isHeadChar (c : Char) : Bool :=
  isTypeChar c || isBlank c

/-- The declaration of a method as it is matched after its annotations. -/
structure Declared where
  lead : List Char
  type : List Char
  gap : List Char
  name : List Char
  space : List Char
  parameters : List Char
  lead_plain : ∀ c ∈ lead, isHeadChar c = true
  type_ne_nil : type ≠ []
  type_plain : ∀ c ∈ type, isTypeChar c = true
  gap_ne_nil : gap ≠ []
  gap_blank : ∀ c ∈ gap, isBlank c = true
  name_ne_nil : name ≠ []
  name_word : ∀ c ∈ name, isWord c = true
  space_blank : ∀ c ∈ space, isBlank c = true
  parameters_plain : ')' ∉ parameters

def Declared.head (d : Declared) : List Char :=
  d.lead ++ d.type ++ d.gap ++ d.name ++ d.space

def Declared.text (d : Declared) : List Char :=
  d.head ++ '(' :: (d.parameters ++ [')'])

theorem isTypeChar_of_isWord {c : Char} (h : isWord c) : isTypeChar c := by
  simp [isTypeChar, h]

theorem isBlank_of_isTypeChar {c : Char} (h : isTypeChar c) : isBlank c = false := by
  simp only [isTypeChar, Bool.or_eq_true, beq_iff_eq] at h
  rcases h with (((h | rfl) | rfl) | rfl) | rfl
  · exact isBlank_of_isWord h
  all_goals decide

theorem Declared.isHeadChar_of_mem (d : Declared) {c : Char} (hc : c ∈ d.head) : isHeadChar c := by
  simp only [head, mem_append] at hc
  rw [isHeadChar, Bool.or_eq_true]
  rcases hc with (((hc | hc) | hc) | hc) | hc
  · exact Bool.or_eq_true _ _ ▸ d.lead_plain c hc
  · exact .inl (d.type_plain c hc)
  · exact .inr (d.gap_blank c hc)
  · exact .inl (isTypeChar_of_isWord (d.name_word c hc))
  · exact .inr (d.space_blank c hc)

/-- An annotation with its arguments and the white space after it. -/
def noteRound : Pattern :=
  lit "@" ++ many1 isAsciiWord ++ blanks ++ opt arguments ++ blanks

def accessWords : List String :=
  ["public", "private", "protected"]

/-- The further modifiers of an annotated method. -/
def furtherWords : List String :=
  ["static", "final", "synchronized"]

/-- What may stand before the type of an annotated method. -/
def memberLead : Pattern :=
  blanks ++ ((opt (anyOf accessWords) ++ blanks) ++ (opt (anyOf furtherWords) ++ blanks))

def typedName : Pattern :=
  group 2 (many1 isTypeChar) ++ blanks1 ++ group 3 (many1 isWord) ++ blanks

theorem mem_ways_endpointPattern : t ∈ ways bound endpointPattern s ↔
      t ∈ ways bound (group 1 (again noteRound 1 none true) ++
        (memberLead ++ (typedName ++ parenthesised 4))) s :=
  mem_ways_congr fun _ => rfl

variable {taken : List Char} {groups : List (Nat × List Char)}

theorem spells_memberLead (h : memberLead.Spells taken groups) :
    (∀ c ∈ taken, isHeadChar c) ∧ groups = [] := by
  have hword : ∀ w ∈ accessWords ++ furtherWords, ∀ c ∈ w.toList, isHeadChar c := by decide
  have hblank : ∀ c, isBlank c → isHeadChar c :=
    fun c hc => by simp [isHeadChar, hc]
  simp [memberLead] at h
  grind

theorem spells_typedName (h : typedName.Spells taken groups) : ∃ type gap name,
    (((type ≠ [] ∧ ∀ c ∈ type, isTypeChar c) ∧ gap ≠ [] ∧ ∀ c ∈ gap, isBlank c) ∧
      name ≠ [] ∧ ∀ c ∈ name, isWord c) ∧
    ∃ space, (∀ c ∈ space, isBlank c) ∧ taken = type ++ (gap ++ (name ++ space)) ∧
      groups = [(3, name), (2, type)] := by
  simpa [typedName] using h

theorem spells_parenthesised {index : Nat} (h : (parenthesised index).Spells taken groups) :
    ∃ inner, ')' ∉ inner ∧ taken = '(' :: (inner ++ [')']) ∧ groups = [(index, inner)] := by
  simp [parenthesised] at h
  obtain ⟨inner, ⟨hinner, rfl⟩, rfl⟩ := h
  refine ⟨inner, fun hmem => ?_, rfl, rfl⟩
  have hplain := hinner _ hmem
  revert hplain
  decide

theorem spells_noteRound (h : noteRound.Spells taken groups) : ∃ name b args b',
    (∀ c ∈ name, isAsciiWord c) ∧ (∀ c ∈ b, isBlank c) ∧
      (args = [] ∨ ∃ inner, (∀ c ∈ inner, notAmong ")" c) ∧ args = '(' :: (inner ++ [')'])) ∧
      (∀ c ∈ b', isBlank c) ∧ taken = '@' :: (name ++ (b ++ (args ++ b'))) ∧ groups = [] := by
  simp [noteRound, arguments] at h
  obtain ⟨name, b, args, ⟨⟨⟨-, hname⟩, hb⟩, hargs⟩, b', hb', rfl⟩ := h
  rcases hargs with ⟨inner, ⟨hinner, rfl⟩, rfl⟩ | ⟨rfl, rfl⟩
  · exact ⟨name, b, _, b', hname, hb, .inr ⟨inner, hinner, rfl⟩, hb', rfl, rfl⟩
  · exact ⟨name, b, _, b', hname, hb, .inl rfl, hb', rfl, rfl⟩

/-- **The shape of an annotated method.** Where `endpointPattern` matches, annotations and a
declaration stand, and its groups are the annotations, the type, the name and the parameters. -/
theorem exists_declared (h : t ∈ ways bound endpointPattern s) :
    ∃ (notes : List (List Char)) (d : Declared), notes ≠ [] ∧
      (∀ note ∈ notes, noteRound.Spells note []) ∧ s.Goes t (notes.flatten ++ d.text)
        [(4, d.parameters), (3, d.name), (2, d.type), (1, notes.flatten)] := by
  obtain ⟨_, _, ⟨_, _, ⟨_, ⟨rounds, hrounds, hleast, rfl, rfl⟩, rfl⟩, _, _, ⟨lead, _, hlead, _, _,
    ⟨_, _, hnamed, _, _, hparen, rfl, rfl⟩, rfl, rfl⟩, rfl, rfl⟩, hgoes⟩ :=
      spells_of_mem_ways (mem_ways_endpointPattern.mp h)
  obtain ⟨hplain, rfl⟩ := spells_memberLead hlead
  obtain ⟨type, gap, name, ⟨⟨htype, hgap⟩, hname⟩, space, hspace, rfl, rfl⟩ :=
    spells_typedName hnamed
  obtain ⟨parameters, hparams, rfl, rfl⟩ := spells_parenthesised hparen
  have hsilent : ∀ round ∈ rounds, round.2 = [] := by
    intro round hround
    obtain ⟨-, -, -, -, -, -, -, -, -, hnil⟩ := spells_noteRound (hrounds round hround)
    exact hnil
  refine ⟨rounds.map Prod.fst, ⟨lead, type, gap, name, space, parameters, hplain, htype.1, htype.2,
    hgap.1, hgap.2, hname.1, hname.2, hspace, hparams⟩, ?_, ?_, ?_⟩
  · rintro hnil
    simp [map_eq_nil_iff.mp hnil] at hleast
  · intro note hnote
    obtain ⟨round, hround, rfl⟩ := mem_map.mp hnote
    rw [← hsilent round hround]
    exact hrounds round hround
  · have hnone : rounds.reverse.flatMap Prod.snd = [] := by
      simpa [flatMap_eq_nil_iff] using hsilent
    rw [hnone] at hgoes
    simpa [Declared.text, Declared.head, List.flatMap] using hgoes

/-! ## Declarations after one annotation -/

theorem isBlank_append_paren {x : List Char} (hx : ∀ c ∈ x, isAsciiWord c)
    {b rest rest' : List Char} (hb : ∀ c ∈ b, isBlank c)
    (h : x ++ '(' :: rest = b ++ rest') : b = [] ∧ rest' = x ++ '(' :: rest := by
  cases b with
  | nil => exact ⟨rfl, h.symm⟩
  | cons d b =>
    have hd := hb d mem_cons_self
    cases x with
    | nil =>
      rw [← (cons.inj h).1] at hd
      cases hd
    | cons e x =>
      rw [← (cons.inj h).1, isBlank_of_isAsciiWord (hx e mem_cons_self)] at hd
      cases hd

/-- `noteRound` takes an annotation up to a place in its name, or as a whole with some of the white
space after it. -/
theorem noteRound_cases (n : Note) {note more tail : List Char} (h : noteRound.Spells note [])
    (hrest : n.text ++ tail = note ++ more) :
    (∃ left, left <:+ n.name ∧ more = left ++ '(' :: (n.inner ++ ')' :: tail)) ∨
      ∃ b, (∀ c ∈ b, isBlank c) ∧ note = n.text ++ b ∧ tail = b ++ more := by
  obtain ⟨name, b, args, b', hname, hb, hargs, hb', rfl, -⟩ := spells_noteRound h
  -- the name is taken up to some place
  have hcut : name ++ (b ++ (args ++ (b' ++ more))) =
      n.name ++ '(' :: (n.inner ++ ')' :: tail) := by
    simpa [Note.text] using hrest.symm
  obtain ⟨left, hleft, hmore⟩ := exists_append_of_append_eq hcut hname (by decide)
  have hword : ∀ c ∈ left, isAsciiWord c :=
    fun c hc => n.isAsciiWord_of_mem_name (by rw [hleft]; exact mem_append_right _ hc)
  obtain ⟨rfl, hmore⟩ := isBlank_append_paren hword hb hmore.symm
  rcases hargs with rfl | ⟨inner, hinner, rfl⟩
  · obtain ⟨-, hmore⟩ := isBlank_append_paren hword hb' hmore.symm
    exact .inl ⟨left, ⟨name, hleft.symm⟩, hmore⟩
  · -- the arguments follow the name as a whole
    right
    have hparen : left ++ '(' :: (n.inner ++ ')' :: tail) =
        [] ++ '(' :: (inner ++ ')' :: (b' ++ more)) := by simpa using hmore.symm
    obtain ⟨rfl, -, hclose⟩ := append_cons_inj hparen hword (by simp) (by decide) (by decide)
    obtain ⟨rfl, -, rfl⟩ := append_cons_inj hclose (fun _ => n.notAmong_of_mem_inner) hinner
      (by decide) (by decide)
    rw [append_nil] at hleft
    exact ⟨b', hb', by simp [Note.text, hleft], rfl⟩

theorem isHeadChar_of_isAsciiWord {c : Char} (h : isAsciiWord c) : isHeadChar c := by
  simp [isHeadChar, isTypeChar_of_isWord (isWord_of_isAsciiWord h)]

variable {x : Char} {m : Match}

/-- Where a head begins, no annotation does. -/
theorem notes_eq_nil {notes : List (List Char)} (h : ∀ note ∈ notes, noteRound.Spells note [])
    {more z r : List Char} (hz : ∀ c ∈ z, isHeadChar c) (hx : x ≠ '@')
    (heq : z ++ x :: r = notes.flatten ++ more) : notes = [] := by
  cases notes with
  | nil => rfl
  | cons note notes =>
    obtain ⟨_, _, _, _, -, -, -, -, rfl, -⟩ := spells_noteRound (h note mem_cons_self)
    cases z with
    | nil => exact absurd (cons.inj heq).1 hx
    | cons c z =>
      have hc := hz c mem_cons_self
      rw [(cons.inj heq).1] at hc
      cases hc

/-- A head is more than one word: white space stands before the name. -/
theorem Declared.not_word_head (d : Declared) : ¬ ∀ c ∈ d.head, isAsciiWord c := by
  intro h
  obtain ⟨c, gap, hgap⟩ := exists_cons_of_ne_nil d.gap_ne_nil
  have hblank := d.gap_blank c (by simp [hgap])
  rw [isBlank_of_isAsciiWord (h c (by simp [Declared.head, hgap]))] at hblank
  cases hblank

/-- **Declarations after one annotation.** What stands before the first character that no head has
is the head of the declaration, but for white space that belongs to the annotation. -/
theorem declared_of_note (n : Note) {z r : List Char} (hz : ∀ c ∈ z, isHeadChar c)
    (hx : isHeadChar x = false) (hat : x ≠ '@') (hrest : s.cursor.rest = n.text ++ (z ++ x :: r))
    (h : t ∈ ways bound endpointPattern s) :
    x = '(' ∧ ∃ (b : List Char) (d : Declared) (rest : List Char),
      (∀ c ∈ b, isBlank c) ∧ z = b ++ d.head ∧ r = d.parameters ++ ')' :: rest ∧
        t.cursor = s.cursor.pass (n.text ++ (z ++ '(' :: (d.parameters ++ [')']))) rest ∧
          t.group? 1 = some (n.text ++ b) ∧ t.group? 3 = some d.name ∧
            t.group? 4 = some d.parameters := by
  obtain ⟨notes, d, hne, hnotes, ⟨rest, hsplit, hcursor⟩, hgroups⟩ := exists_declared h
  obtain ⟨note, notes, rfl⟩ := exists_cons_of_ne_nil hne
  have hd : d.text ++ rest = d.head ++ '(' :: (d.parameters ++ ')' :: rest) := by
    simp [Declared.text]
  rw [hrest, flatten_cons, append_assoc, append_assoc, hd] at hsplit
  obtain ⟨hnote, hmorenotes⟩ := forall_mem_cons.mp hnotes
  rcases noteRound_cases n hnote hsplit with ⟨left, hleft, hmore⟩ | ⟨b, hb, rfl, hmore⟩
  · -- within the name: no white space follows before a parenthesis
    have hword : ∀ c ∈ left, isAsciiWord c :=
      fun c hc => n.isAsciiWord_of_mem_name (hleft.subset hc)
    have hheads := fun c hc => isHeadChar_of_isAsciiWord (hword c hc)
    obtain rfl := notes_eq_nil hmorenotes hheads (by decide) hmore.symm
    obtain ⟨rfl, -⟩ := append_cons_inj hmore.symm hheads (fun _ => d.isHeadChar_of_mem)
      (by decide) (by decide)
    exact absurd hword d.not_word_head
  · -- behind the arguments: the head begins in the white space there
    obtain ⟨z', rfl, hz'⟩ := exists_append_of_append_eq hmore.symm hb (by
      rw [isHeadChar, Bool.or_eq_false_iff] at hx
      exact hx.2)
    have hheads : ∀ c ∈ z', isHeadChar c := fun c hc => hz c (mem_append_right _ hc)
    obtain rfl := notes_eq_nil hmorenotes hheads hat hz'.symm
    obtain ⟨rfl, rfl, rfl⟩ := append_cons_inj hz'.symm hheads (fun _ => d.isHeadChar_of_mem) hx
      (by decide)
    refine ⟨rfl, b, d, rest, hb, rfl, rfl, ?_, ?_, hgroups 3, hgroups 4⟩
    · rw [hcursor]
      simp [Declared.text]
    · have hone : t.group? 1 = some [n.text ++ b].flatten := hgroups 1
      rwa [flatten_singleton] at hone

/-! ## Annotated methods -/

/-- A method with one mapping annotation. -/
structure Handler where
  note : Note
  gap : List Char
  access : Option (Modifier accessWords)
  further : Option (Modifier furtherWords)
  type : List Char
  name : List Char
  parameters : List Char
  gap_blank : ∀ c ∈ gap, isBlank c = true
  type_ne_nil : type ≠ []
  type_plain : ∀ c ∈ type, isTypeChar c = true
  name_ne_nil : name ≠ []
  name_word : ∀ c ∈ name, isWord c = true
  parameters_plain : ')' ∉ parameters

/-- A modifier that may be absent, as written. -/
def modifierText {words : List String} (m : Option (Modifier words)) : List Char :=
  m.elim [] Modifier.text

namespace Handler

variable (h : Handler)

/-- What stands between the annotation and the parameters. -/
def head : List Char :=
  h.gap ++ (modifierText h.access ++ modifierText h.further) ++ (h.type ++ [' '] ++ h.name)

/-- A method as written, up to its body. -/
def text : List Char :=
  h.note.text ++ (h.head ++ '(' :: (h.parameters ++ [')']))

variable {words : List String} {b : List Char}

theorem isHeadChar_of_mem_modifierText (hwords : AreWords words) {m : Option (Modifier words)}
    {c : Char} (hc : c ∈ modifierText m) : isHeadChar c := by
  cases m with
  | none => cases hc
  | some m =>
    rcases mem_append.mp hc with hc | hc
    · exact isHeadChar_of_isAsciiWord ((hwords.word _ m.mem).2 c hc)
    · rw [mem_singleton.mp hc]
      rfl

theorem areWords_accessWords : AreWords accessWords :=
  ⟨by decide, by decide⟩

theorem areWords_furtherWords : AreWords furtherWords :=
  ⟨by decide, by decide⟩

theorem isHeadChar_of_mem {c : Char} (hc : c ∈ h.head) : isHeadChar c := by
  simp only [head, mem_append] at hc
  rcases hc with (hc | hc | hc) | (hc | hc) | hc
  · simp [isHeadChar, h.gap_blank c hc]
  · exact isHeadChar_of_mem_modifierText areWords_accessWords hc
  · exact isHeadChar_of_mem_modifierText areWords_furtherWords hc
  · simp [isHeadChar, h.type_plain c hc]
  · rw [mem_singleton.mp hc]
    rfl
  · simp [isHeadChar, isTypeChar_of_isWord (h.name_word c hc)]

theorem fits_modifierText (m : Option (Modifier words)) (rest : List Char) :
    (opt (anyOf words) ++ blanks).Fits (modifierText m) rest := by
  cases m with
  | none =>
    have hnone : blanks.Fits [] rest := Fits.many (by simp) rest
    exact (Fits.opt_nil _ _).append hnone
  | some m => exact (Fits.anyOf m.mem _).opt.append (.many (by decide) rest)

theorem fits_noteRound (n : Note) (rest : List Char) : noteRound.Fits n.text rest := by
  have hargs : ∀ more, arguments.Fits ('(' :: (n.inner ++ [')'])) more := fun more =>
    ((Fits.lit "(" _).append (.many (fun _ => n.notAmong_of_mem_inner) _)).append (.lit ")" more)
  have hnone : ∀ more, blanks.Fits [] more := Fits.many (by simp)
  have hname : ∀ more, (many1 isAsciiWord).Fits n.name more :=
    Fits.many1 n.name_ne_nil fun _ => n.isAsciiWord_of_mem_name
  have hround := ((((Fits.lit "@" _).append (hname _)).append (hnone _)).append
    (hargs _).opt).append (hnone rest)
  simpa [noteRound, Note.text] using hround

/-- `endpointPattern` matches a method with an annotation. -/
theorem fits_text (rest : List Char) : endpointPattern.Fits h.text rest := by
  have hnotes : ∀ more, (group 1 (again noteRound 1 none true)).Fits h.note.text more :=
    fun more => (fits_noteRound h.note more).again1.group 1
  have hlead : ∀ more, memberLead.Fits (h.gap ++ (modifierText h.access ++
      modifierText h.further)) more := fun more =>
    (Fits.many h.gap_blank _).append ((fits_modifierText _ _).append (fits_modifierText _ more))
  have hnamed : ∀ more, typedName.Fits (h.type ++ [' '] ++ h.name) more := by
    intro more
    have hspace : ∀ more, blanks1.Fits [' '] more := Fits.many1 (by simp) (by decide)
    have hnone : ∀ more, blanks.Fits [] more := Fits.many (by simp)
    have htype : ∀ more, (group 2 (many1 isTypeChar)).Fits h.type more :=
      fun more => (Fits.many1 h.type_ne_nil h.type_plain more).group 2
    have hname : ∀ more, (group 3 (many1 isWord)).Fits h.name more :=
      fun more => (Fits.many1 h.name_ne_nil h.name_word more).group 3
    have hnamed := (((htype _).append (hspace _)).append (hname _)).append (hnone more)
    simpa [typedName] using hnamed
  have hparams : ∀ more, (parenthesised 4).Fits ('(' :: (h.parameters ++ [')'])) more := by
    intro more
    have hplain : ∀ c ∈ h.parameters, notAmong ")" c := by
      intro c hc
      simpa [notAmong] using fun heq : c = ')' => h.parameters_plain (heq ▸ hc)
    exact ((Fits.lit "(" _).append ((Fits.many hplain _).group 4)).append (.lit ")" more)
  have hall := (hnotes _).append ((hlead _).append ((hnamed _).append (hparams rest)))
  intro bound s hrest
  obtain ⟨t, ht, htrest⟩ := hall bound s (by rw [hrest]; simp [text, head])
  exact ⟨t, mem_ways_endpointPattern.mpr ht, htrest⟩

/-- The last word before the parameters is the name. -/
theorem name_eq_of_head {d : Declared} (heq : h.head = b ++ d.head) : d.name = h.name := by
  have hsolid : ∀ {x : List Char}, (∀ c ∈ x, isWord c) →
      ∀ c ∈ x, (!isBlank c) := by
    intro x hx c hc
    rw [isBlank_of_isWord (hx c hc)]
    rfl
  have hspace : d.space = [] := by
    rcases eq_nil_or_concat d.space with hnil | ⟨space, e, hconcat⟩
    · exact hnil
    · have hlast : h.name.getLast? = some e := by
        have hends := congrArg getLast? heq
        rw [head, ← append_assoc, getLast?_append_of_ne_nil _ h.name_ne_nil] at hends
        rw [hends]
        simp [Declared.head, hconcat]
      have hword := h.name_word e (mem_of_getLast? hlast)
      have hblank := d.space_blank e (by simp [hconcat])
      rw [isBlank_of_isWord hword] at hblank
      cases hblank
  rcases eq_nil_or_concat d.gap with hnil | ⟨gap, e, hconcat⟩
  · exact absurd hnil d.gap_ne_nil
  · have hcut : (b ++ (d.lead ++ d.type ++ gap)) ++ e :: d.name =
        (h.gap ++ (modifierText h.access ++ modifierText h.further) ++ h.type) ++
          ' ' :: h.name := by
      simpa [Declared.head, head, hspace, hconcat] using heq.symm
    have he : (!isBlank e) = false := by
      rw [d.gap_blank e (by simp [hconcat])]
      rfl
    exact (append_cons_inj_last hcut (hsolid d.name_word) (hsolid h.name_word) he rfl).2.2

/-- **`endpointPattern` matches an annotated method as a whole.** -/
theorem exists_match (bound : Nat) {c : Cursor} {rest : List Char}
    (hrest : c.rest = h.text ++ rest) :
    ∃ (m : Match) (b : List Char), matchAt? endpointPattern bound false c = some m ∧
      m.start = c.position ∧ m.stop = c.position + h.text.length ∧
        (∀ d ∈ b, isBlank d) ∧ m.group 1 = h.note.text ++ b ∧ m.group 3 = h.name ∧
          m.group 4 = h.parameters := by
  obtain ⟨t, ht, hmatch⟩ := (h.fits_text rest).matchAt? bound hrest
  have hrest' : c.rest = h.note.text ++ (h.head ++ '(' :: (h.parameters ++ ')' :: rest)) := by
    rw [hrest]
    simp [text]
  obtain ⟨-, b, d, rest', hb, hhead, hclose, hcursor, hnotes, hname, hgroup⟩ :=
    declared_of_note h.note (fun _ => h.isHeadChar_of_mem) (by decide) (by decide) hrest' ht
  have hplain : ∀ {x : List Char}, ')' ∉ x → ∀ e ∈ x, (e != ')') := by
    intro x hx e he
    exact bne_iff_ne.mpr fun heq => hx (heq ▸ he)
  obtain ⟨hparams, -, rfl⟩ := append_cons_inj hclose (hplain h.parameters_plain)
    (hplain d.parameters_plain) (by decide) (by decide)
  refine ⟨.ofWay c t, b, hmatch, rfl, ?_, hb, ?_, ?_, ?_⟩
  · rw [Match.ofWay, hcursor, ← hparams]
    rfl
  · rw [Match.group_ofWay, hnotes]
    rfl
  · rw [Match.group_ofWay, hname, ← h.name_eq_of_head hhead]
    rfl
  · rw [Match.group_ofWay, hgroup, hparams]
    rfl

/-- The endpoint that a method makes in a class with a base path. -/
def endpoint (base : List Char) : Endpoint where
  name := String.ofList h.name
  verbs := h.note.verbs
  path := String.ofList (joinPaths base h.note.path.text)
  result := String.ofList h.name
  parameters := Java.parameters h.parameters
  annotations := [String.ofList h.note.text]

/-- One annotation makes one of the `endpointsOf` a match. -/
theorem endpointsOf_eq {m : Match} (hb : ∀ c ∈ b, isBlank c)
    (hnotes : m.group 1 = h.note.text ++ b) (hname : m.group 3 = h.name)
    (hparams : m.group 4 = h.parameters) (base : List Char) :
    endpointsOf base m = [h.endpoint base] := by
  rw [endpointsOf, hnotes, h.note.collectAll_text hb, hname, hparams]
  simp [h.note.mappingOf_text, Mapping.isEndpoint, endpoint]

end Handler

/-! ## Following the search -/

/-- The endpoints from a place on, with the base path at each position. -/
def endpointsFrom (baseAt : Nat → List Char) (bound : Nat) (c : Cursor) : List Endpoint :=
  (searchFrom endpointPattern bound c).flatMap fun m => endpointsOf (baseAt m.start) m

theorem endpoints_eq_endpointsFrom (code : List Char) :
    endpoints code = endpointsFrom (basePathAt (basePaths code) (classPositions code)) code.length
      (.start code) := rfl

variable {baseAt : Nat → List Char} {c : Cursor} {gap rest : List Char}

/-- `endpointPattern` begins at an annotation. -/
theorem passes_endpointPattern (hgap : '@' ∉ gap) (rest : List Char) :
    Passes endpointPattern gap rest :=
  .of_not_mem rfl rfl hgap

theorem endpointsFrom_gap (hgap : '@' ∉ gap) (hrest : c.rest = gap ++ rest) :
    endpointsFrom baseAt bound c = endpointsFrom baseAt bound (c.pass gap rest) := by
  rw [endpointsFrom, (passes_endpointPattern hgap rest).searchFrom hrest]
  rfl

theorem endpointsFrom_end (hrest : c.rest = []) : endpointsFrom baseAt bound c = [] := by
  rw [endpointsFrom, searchFrom_of_refuses hrest ⟨rfl, rfl⟩]
  rfl

/-- **The first of `endpointsFrom` a place** is that of the method at this place. -/
theorem endpointsFrom_handler (h : Handler) (hrest : c.rest = h.text ++ rest) :
    endpointsFrom baseAt bound c =
      h.endpoint (baseAt c.position) :: endpointsFrom baseAt bound (c.pass h.text rest) := by
  obtain ⟨m, b, hmatch, hstart, hstop, hb, hnotes, hname, hparams⟩ :=
    h.exists_match bound hrest
  have hne : h.text ≠ [] := by simp [Handler.text, Note.text]
  rw [endpointsFrom, searchFrom_of_some hrest hne hmatch hstop, flatMap_cons,
    h.endpointsOf_eq hb hnotes hname hparams, hstart]
  rfl

/-- An annotation before something else than a method makes no endpoint. -/
theorem endpointsFrom_note (n : Note) {z r : List Char} {x : Char}
    (hz : ∀ c ∈ z, isHeadChar c) (hx : isHeadChar x = false) (hat : x ≠ '@')
    (hparen : x ≠ '(') (hrest : c.rest = n.text ++ (z ++ x :: r)) : endpointsFrom baseAt bound c =
      endpointsFrom baseAt bound (c.pass n.text (z ++ x :: r)) := by
  have hfails : endpointPattern.FailsAt (n.text ++ (z ++ x :: r)) := by
    refine .of_ways fun bound s hrest t ht => ?_
    exact hparen (declared_of_note n hz hx hat hrest ht).1
  have hpasses : Passes endpointPattern n.text (z ++ x :: r) := by
    rw [Note.text, passes_cons_iff]
    exact ⟨hfails, passes_endpointPattern n.at_not_mem _⟩
  rw [endpointsFrom, hpasses.searchFrom hrest]
  rfl

/-! ## Names and types of endpoints -/

/-- A match in a text is that of annotations with a declaration after them. -/
structure Declared.Matched (d : Declared) (code : List Char) (m : Match) : Prop where
  found : m ∈ endpointPattern.findAll code
  stands : ∃ before notes after, code = before ++ (notes ++ (d.text ++ after)) ∧
    m.start = before.length ∧ m.text = notes ++ d.text
  type_eq : m.group 2 = d.type
  name_eq : m.group 3 = d.name
  parameters_eq : m.group 4 = d.parameters

theorem exists_matched {code : List Char} (hm : m ∈ endpointPattern.findAll code) :
    ∃ d : Declared, d.Matched code m := by
  obtain ⟨before, rest, hcode, t, ht, rfl⟩ := exists_way_of_mem_findAll hm
  obtain ⟨notes, d, -, -, hgoes⟩ := exists_declared ht
  obtain ⟨after, hsplit, -⟩ := hgoes.reaches
  have hsplit : rest = notes.flatten ++ d.text ++ after := hsplit
  refine ⟨d, hm, ⟨before, notes.flatten, after, ?_, Nat.zero_add _,
    Match.text_ofWay hgoes.reaches⟩, ?_, ?_, ?_⟩
  · rw [hcode, hsplit, append_assoc]
  all_goals
    rw [Match.group_ofWay, hgoes.group?_eq]
    rfl

theorem name_result_of_mem {base : List Char} {e : Endpoint} (h : e ∈ endpointsOf base m) :
    e.name = String.ofList (m.group 3) ∧ e.result = String.ofList (m.group 3) := by
  obtain ⟨mapping, -, rfl⟩ := mem_map.mp h
  exact ⟨rfl, rfl⟩

theorem basePathAt_zero (bases : List (List Char × List Char)) (classes : List (List Char × Nat)) :
    basePathAt bases classes 0 = [] := by
  have hnone : enclosingClass? classes 0 = none := by
    cases classes with
    | nil => rfl
    | cons k classes => simp [enclosingClass?]
  rw [basePathAt, hnone]
  rfl

/-- The `endpoints` of a method alone: its own, without a base path. -/
theorem endpoints_handler_text (h : Handler) : endpoints h.text = [h.endpoint []] := by
  have hrest : (Cursor.start h.text).rest = h.text ++ [] := (append_nil _).symm
  rw [endpoints_eq_endpointsFrom, endpointsFrom_handler h hrest, endpointsFrom_end rfl]
  show [h.endpoint (basePathAt _ _ 0)] = _
  rw [basePathAt_zero]

/-- **Results are names.** Each of `endpoints` comes from a match of a declaration, a name with a
type before it, and what it reports as its result is the name: it is the type only if the two are
the same word. So it is for every method with a mapping annotation. -/
theorem endpoints_result (code : List Char) (h : Handler) :
    (∀ e ∈ endpoints code, ∃ (m : Match) (d : Declared), d.Matched code m ∧
      e ∈ endpointsOf (basePathAt (basePaths code) (classPositions code) m.start) m ∧
        e.name = String.ofList d.name ∧ e.result = String.ofList d.name ∧
          (e.result = String.ofList d.type ↔ d.type = d.name)) ∧
    ∃ e, endpoints h.text = [e] ∧ e.name = String.ofList h.name ∧
      e.result = String.ofList h.name ∧ (e.result = String.ofList h.type ↔ h.type = h.name) := by
  have hiff : ∀ name type : List Char,
      String.ofList name = String.ofList type ↔ type = name :=
    fun name type => ⟨fun h => (String.ofList_injective h).symm, fun h => by rw [h]⟩
  constructor
  · intro e he
    obtain ⟨m, hm, hmem⟩ := mem_flatMap.mp he
    obtain ⟨d, hd⟩ := exists_matched hm
    obtain ⟨hname, hresult⟩ := name_result_of_mem hmem
    rw [hd.name_eq] at hname hresult
    refine ⟨m, d, hd, hmem, hname, hresult, ?_⟩
    rw [hresult]
    exact hiff _ _
  · exact ⟨h.endpoint [], endpoints_handler_text h, rfl, rfl, hiff _ _⟩

/-- The access word of a method that is seen everywhere. -/
def publicAccess : Modifier accessWords :=
  ⟨"public", by decide⟩

/-- The method `@GetMapping("/p") public T n()`. -/
def Handler.plain : Handler where
  note := .sole (some .get) ⟨"/p".toList, by decide, by decide⟩
  gap := [' ']
  access := some publicAccess
  further := none
  type := "T".toList
  name := ['n']
  parameters := []
  gap_blank := by decide
  type_ne_nil := by decide
  type_plain := by decide
  name_ne_nil := by decide
  name_word := by decide
  parameters_plain := by decide

theorem endpoints_result_plain :
    ∃ e, endpoints "@GetMapping(\"/p\") public T n()".toList = [e] ∧ e.name = "n" ∧
      e.result = "n" ∧ (e.result = "T" ↔ "T".toList = ['n']) :=
  (endpoints_result [] .plain).2

theorem endpoints_result_ne_type :
    (endpoints "@GetMapping(\"/p\") public T n()".toList).map Endpoint.result ≠ ["T"] := by
  have hplain : endpoints "@GetMapping(\"/p\") public T n()".toList = [Handler.plain.endpoint []] :=
    endpoints_handler_text .plain
  rw [hplain]
  decide

end Java

end CodeAtlas
