import CodeAtlas.Outline.Java
import CodeAtlas.Proofs.Words

/-!
# Headers of classes

The pattern for a class repeats one group for its modifiers, and a repeated group remembers its last
round alone. Its clauses hold lists of types, whose characters are those of words, commas and white
space: such a list runs on as far as it can, over a second clause and up to the brace.
-/

open List

namespace CodeAtlas

open Pattern Outline Text

namespace Java

variable {bound : Nat} {rest : List Char}

/-! ## Modifiers -/

/-- The words that may stand before a class. -/
def typeModifiers : List String :=
  ["public", "private", "protected", "abstract", "final", "static"]

theorem areWords_typeModifiers : AreWords typeModifiers :=
  ⟨by decide +kernel, by decide +kernel⟩

/-- A modifier and the white space after it. -/
def modifierRound : Pattern :=
  group 1 (group 2 (anyOf typeModifiers) ++ blanks1)

/-- Modifiers one after another, each with a space after it. -/
def modifiersText (ms : List (Modifier typeModifiers)) : List Char :=
  ms.flatMap Modifier.text

theorem modifiersText_cons (m : Modifier typeModifiers) (ms : List (Modifier typeModifiers))
    (rest : List Char) :
    modifiersText (m :: ms) ++ rest = m.text ++ (modifiersText ms ++ rest) := by
  rw [modifiersText, flatMap_cons, append_assoc]
  rfl

def modifierGroups (m : Modifier typeModifiers) : List (Nat × List Char) :=
  [(1, m.text), (2, m.word.toList)]

theorem leads_modifierRound (m : Modifier typeModifiers) (hblank : rest.head?.any isBlank = false) :
    modifierRound.Leads bound m.text rest (modifierGroups m) :=
  (((Leads.anyOf areWords_typeModifiers.noneBegins m.mem _).group 2).append (.space hblank)).group 1

theorem modifiersText_head?_isBlank (ms : List (Modifier typeModifiers))
    (hblank : rest.head?.any isBlank = false) :
    (modifiersText ms ++ rest).head?.any isBlank = false := by
  cases ms with
  | nil => exact hblank
  | cons m ms =>
    rw [modifiersText_cons]
    exact areWords_typeModifiers.head?_isBlank m _

theorem leads_modifiers (ms : List (Modifier typeModifiers)) (hbound : ms.length ≤ bound)
    (hblank : rest.head?.any isBlank = false) (hstop : modifierRound.FailsAt rest) :
    (star modifierRound).Leads bound (modifiersText ms) rest
      (ms.reverse.flatMap modifierGroups) := by
  refine Leads.star hbound (fun front m back _ => ⟨by simp [Modifier.text, spaced], ?_⟩) hstop
  exact leads_modifierRound m (modifiersText_head?_isBlank back hblank)

theorem lookup_modifierGroups (ms : List (Modifier typeModifiers)) :
    (ms.reverse.flatMap modifierGroups).lookup 1 = ms.getLast?.map Modifier.text := by
  rw [← head?_reverse]
  cases ms.reverse <;> rfl

theorem lookup_modifierGroups_of_lt (ms : List (Modifier typeModifiers)) {index : Nat}
    (h : 2 < index) : (ms.reverse.flatMap modifierGroups).lookup index = none := by
  refine lookup_eq_none_iff.mpr fun entry hentry => ?_
  obtain ⟨m, -, hm⟩ := mem_flatMap.mp hentry
  simp only [modifierGroups, mem_cons, not_mem_nil, or_false] at hm
  rcases hm with rfl | rfl <;> exact bne_iff_ne.mpr (by omega)

/-! ## Clauses -/

def clauseLead (keyword : String) : List Char :=
  ' ' :: spaced keyword

variable {c : Char} {list lead piece : List Char} {p : Token} {pieces : List (List Char)}

theorem isBlank_of_isTypeListChar (h : isTypeListChar c = false) : isBlank c = false := by
  rw [isTypeListChar, Bool.or_eq_false_iff] at h
  exact h.2

section Clause

variable {keyword : String} {index : Nat} {body : List Char}

/-- `clause` takes nothing where no white space comes next. -/
theorem leads_clause_of_solid (h : rest.head?.any isBlank = false) :
    (clause keyword index).Leads bound [] rest [] := by
  have hfails : blanks1.FailsAt rest := .of_refuses ⟨h, rfl⟩
  exact .opt_nil (((hfails.append _).append _).append _)

/-- `clause` takes nothing where another word comes next. -/
theorem leads_clause_of_absent (keyword : String) (index : Nat)
    (hblank : rest.head?.any isBlank = false) (hother : ¬ keyword.toList <+: rest) :
    (clause keyword index).Leads bound [] (' ' :: rest) [] :=
  .opt_nil (((FailsAt.space hblank (.lit hother)).append _).append _)

/-- What a `clause` is read as, with what follows its keyword: its group holds the characters of
types there, and it ends behind them, or if there are none, where it began. -/
structure ClauseRead (index : Nat) (body : List Char) (lead rest : List Char)
    (groups : List (Nat × List Char)) : Prop where
  list : (groups.lookup index).getD [] = body.takeWhile isTypeListChar
  other : ∀ other, other ≠ index → groups.lookup other = none
  place : rest = lead ++ body ∧ body.head?.any isTypeListChar = false ∨
    rest = body.dropWhile isTypeListChar

/-- **`clause` takes all characters of types that follow its keyword**, and nothing if there are
none. -/
theorem exists_leads_clause (bound : Nat) (keyword : String) (index : Nat)
    (hhead : (spaced keyword ++ body).head?.any isBlank = false)
    (hblank : body.head?.any isBlank = false) :
    ∃ taken rest groups, clauseLead keyword ++ body = taken ++ rest ∧
      (clause keyword index).Leads bound taken rest groups ∧
      ClauseRead index body (clauseLead keyword) rest groups := by
  by_cases htypes : body.head?.any isTypeListChar
  · -- the list runs on to the first other character
    have hsplit : body.takeWhile isTypeListChar ++ body.dropWhile isTypeListChar = body :=
      takeWhile_append_dropWhile
    have hne : body.takeWhile isTypeListChar ≠ [] := by
      cases body with
      | nil => cases htypes
      | cons c body =>
        have hc : isTypeListChar c := htypes
        simp [hc]
    have hlist : (many1 isTypeListChar).Leads bound _ (body.dropWhile isTypeListChar) [] :=
      .many1 hne (fun c hc => mem_takeWhile_imp hc) (head?_dropWhile _ _)
    refine ⟨clauseLead keyword ++ body.takeWhile isTypeListChar, _, _, ?_,
      (((Leads.space ?_).append (.lit keyword _)).append (.space ?_)).append (hlist.group index)
        |>.opt, ?_, ?_, .inr rfl⟩
    · rw [append_assoc, hsplit]
    · simpa [hsplit, spaced] using hhead
    · rw [hsplit]
      exact hblank
    · simp
    · intro other hother
      simp [hother]
  · -- no list follows the keyword, so the clause takes nothing
    rw [Bool.not_eq_true] at htypes
    have hlist : (group index (many1 isTypeListChar)).FailsAt body := .of_refuses ⟨htypes, rfl⟩
    have hfails : (blanks1 ++ (lit keyword ++ (blanks1 ++ group index (many1 isTypeListChar)))).FailsAt
        (' ' :: (keyword.toList ++ ' ' :: body)) :=
      .space (by simpa [spaced] using hhead) (.lit_append (.space hblank hlist))
    refine ⟨[], clauseLead keyword ++ body, [], rfl, .opt_nil ?_, ?_, fun _ _ => rfl,
      .inl ⟨rfl, htypes⟩⟩
    · intro bound next s hrest
      exact hfails bound next s (by rw [hrest]; simp [clauseLead, spaced])
    · cases body with
      | nil => rfl
      | cons c body =>
        have hc : isTypeListChar c = false := htypes
        rw [takeWhile_cons, hc]
        rfl

end Clause

/-- `typePattern` finds a name of word characters. -/
theorem isWord_of_mem_group_three {keyword : String} {text : List Char} {m : Match}
    (hm : m ∈ (typePattern keyword).findAll text) : ∀ c ∈ m.group 3, isWord c := by
  obtain ⟨passed, rest, -, t, ht, rfl⟩ := exists_way_of_mem_findAll hm
  obtain ⟨_, _, hspells, -, hgroups⟩ := spells_of_mem_ways ht
  obtain ⟨_, _, hparents, _, implemented, himplemented, -, rfl⟩ := spells_append.mp hspells
  obtain ⟨_, _, hnamed, _, extended, hextended, -, rfl⟩ := spells_append.mp hparents
  obtain ⟨_, front, -, name, _, hname, -, rfl⟩ := spells_append.mp hnamed
  simp [clause] at himplemented hextended hname
  obtain ⟨⟨-, hword⟩, rfl⟩ := hname
  have hgroup : t.group? 3 = some name := by
    rcases himplemented with ⟨_, _, -, _, -, -, rfl⟩ | ⟨-, rfl⟩ <;>
      rcases hextended with ⟨_, _, -, _, -, -, rfl⟩ | ⟨-, rfl⟩ <;> exact hgroups 3
  rw [Match.group_ofWay, hgroup]
  exact hword

/-! ## Headers -/

structure Header where
  modifiers : List (Modifier typeModifiers)
  name : Token
  parent : Option Token
  interfaces : List Token

namespace Header

def interfaceList (h : Header) : List Char :=
  joinWith [',', ' '] (h.interfaces.map Token.text)

/-- The clause for the interfaces, if there are any. -/
def implementsText (h : Header) : List Char :=
  if h.interfaces.isEmpty then [] else clauseLead "implements" ++ h.interfaceList

/-- The clause for the parent, if there is one. -/
def extendsText (h : Header) : List Char :=
  match h.parent with
  | none => []
  | some p => clauseLead "extends" ++ p.text

/-- A header as written, with the brace after it. -/
def text (h : Header) : List Char :=
  modifiersText h.modifiers ++ (spaced "class" ++ (h.name.text ++
    (h.extendsText ++ (h.implementsText ++ " \x7b".toList))))

def declared (h : Header) : TypeDeclaration where
  name := String.ofList h.name.text
  modifiers := h.modifiers.map Modifier.word
  parents := h.parent.toList.map fun p => String.ofList p.text
  interfaces := h.interfaces.map fun i => String.ofList i.text

/-- What is taken for the list of parents: all characters of types after the keyword. -/
def parentsText (h : Header) : List Char :=
  match h.parent with
  | none => []
  | some p => (p.text ++ (h.implementsText ++ " \x7b".toList)).takeWhile isTypeListChar

/-- What is taken for the list of interfaces; after a parent there is none. -/
def interfacesText (h : Header) : List Char :=
  if h.parent.isSome || h.interfaces.isEmpty then []
  else (h.interfaceList ++ " \x7b".toList).takeWhile isTypeListChar

end Header

/-- Names of word characters only. -/
structure Header.Plain (h : Header) : Prop where
  name : ∀ c ∈ h.name.text, isWord c = true
  parent : ∀ p ∈ h.parent, ∀ c ∈ p.text, isWord c = true
  interfaces : ∀ i ∈ h.interfaces, ∀ c ∈ i.text, isWord c = true

theorem isTypeListChar_of_isWord (h : isWord c) : isTypeListChar c := by
  simp [isTypeListChar, isDottedWord, h]

/-- Characters of types run up to the brace. -/
theorem stretch_brace (hlist : ∀ c ∈ list, isTypeListChar c) :
    (list ++ " \x7b".toList).takeWhile isTypeListChar = list ++ [' '] ∧
      (list ++ " \x7b".toList).dropWhile isTypeListChar = ['\x7b'] := by
  rw [takeWhile_append_of_pos hlist, dropWhile_append_of_pos hlist]
  exact ⟨rfl, rfl⟩

variable {h : Header}

theorem Header.Plain.types_interfaceList (hplain : h.Plain) :
    ∀ c ∈ h.interfaceList, isTypeListChar c := by
  intro c hc
  rcases mem_joinWith hc with hsep | ⟨piece, hpiece, hmem⟩
  · simp only [mem_cons, not_mem_nil, or_false] at hsep
    rcases hsep with rfl | rfl <;> decide
  · obtain ⟨i, hi, rfl⟩ := mem_map.mp hpiece
    exact isTypeListChar_of_isWord (hplain.interfaces i hi c hmem)

theorem Header.Plain.types_extended (hplain : h.Plain) (hp : h.parent = some p) :
    ∀ c ∈ p.text ++ h.implementsText, isTypeListChar c := by
  intro c hc
  rcases mem_append.mp hc with hc | hc
  · exact isTypeListChar_of_isWord (hplain.parent p hp c hc)
  · rw [implementsText] at hc
    split at hc
    · cases hc
    · rcases mem_append.mp hc with hc | hc
      · have hlead : ∀ c ∈ clauseLead "implements", isTypeListChar c := by decide
        exact hlead c hc
      · exact hplain.types_interfaceList c hc

/-- After a list of plain names the brace is left. -/
theorem ClauseRead.rest_of_plain {index : Nat} {groups : List (Nat × List Char)}
    (h : ClauseRead index (list ++ " \x7b".toList) lead rest groups)
    (hlist : ∀ c ∈ list, isTypeListChar c) (hne : list ≠ []) :
    ∀ c ∈ rest, c = ' ' ∨ c = '\x7b' := by
  rcases h.place with ⟨-, hhead⟩ | hrest
  · obtain ⟨c, list, rfl⟩ := exists_cons_of_ne_nil hne
    have hc : isTypeListChar c = false := hhead
    rw [hlist c mem_cons_self] at hc
    cases hc
  · rw [hrest, (stretch_brace hlist).2]
    decide

theorem head?_isBlank_token (i : Token) (rest : List Char) :
    (i.text ++ rest).head?.any isBlank = false :=
  IsOneWord.head?_isBlank ⟨i.ne_nil, fun c hc => isBlank_of_isTokenChar (i.plain c hc)⟩ rest

theorem Header.exists_interfaceList_eq (h : Header) (hne : h.interfaces.isEmpty = false) :
    ∃ i others more, h.interfaces = i :: others ∧ h.interfaceList = i.text ++ more ∧
      (more = [] ∨ [',', ' '] <+: more) := by
  cases hinterfaces : h.interfaces with
  | nil =>
    rw [hinterfaces] at hne
    cases hne
  | cons i others =>
    rw [interfaceList, hinterfaces]
    cases others with
    | nil => exact ⟨i, [], [], rfl, (append_nil _).symm, .inl rfl⟩
    | cons j others =>
      refine ⟨i, j :: others, [',', ' '] ++ joinWith [',', ' ']
        ((j :: others).map Token.text), rfl, ?_, .inr (prefix_append _ _)⟩
      rw [map_cons, map_cons, joinWith_cons_cons, append_assoc]

/-- What the clauses of a header are read as, with what is left after them. -/
structure Header.ClausesRead (h : Header) (rest : List Char) (groups : List (Nat × List Char)) :
    Prop where
  parents : (groups.lookup 4).getD [] = h.parentsText
  interfaces : (groups.lookup 5).getD [] = h.interfacesText
  other : ∀ index < 4, groups.lookup index = none
  rest_of_plain : h.Plain → ∀ c ∈ rest, c = ' ' ∨ c = '\x7b'

/-- Without a parent the second clause holds the interfaces. -/
theorem Header.exists_clausesRead_of_orphan (h : Header) (bound : Nat) (hparent : h.parent = none) :
    ∃ taken rest groups, h.implementsText ++ " \x7b".toList = taken ++ rest ∧
      (clause "extends" 4 ++ clause "implements" 5).Leads bound taken rest groups ∧
      h.ClausesRead rest groups := by
  have hparents : h.parentsText = [] := by rw [parentsText, hparent]
  cases hempty : h.interfaces.isEmpty with
  | true =>
    have hinterfaces : h.interfacesText = [] := by simp [interfacesText, hempty]
    have hfirst : (clause "extends" 4).Leads bound [] [' ', '\x7b'] [] :=
      leads_clause_of_absent "extends" 4 rfl (by decide)
    have hsecond : (clause "implements" 5).Leads bound [] [' ', '\x7b'] [] :=
      leads_clause_of_absent "implements" 5 rfl (by decide)
    exact ⟨[], " \x7b".toList, [], by simp [implementsText, hempty], hfirst.append hsecond,
      hparents.symm, hinterfaces.symm, fun _ _ => rfl, fun _ => by decide⟩
  | false =>
    obtain ⟨i, _, more, -, hlist, -⟩ := h.exists_interfaceList_eq hempty
    have hblank : (h.interfaceList ++ " \x7b".toList).head?.any isBlank = false := by
      rw [hlist, append_assoc]
      exact head?_isBlank_token i _
    obtain ⟨taken, rest, groups, hsplit, hleads, hread⟩ :=
      exists_leads_clause bound "implements" 5 rfl hblank
    have habsent : (clause "extends" 4).Leads bound [] (taken ++ rest) [] := by
      rw [← hsplit]
      exact leads_clause_of_absent "extends" 4 rfl (by simp [spaced])
    refine ⟨taken, rest, _, ?_, habsent.append hleads, ?_, ?_, ?_, fun hplain => ?_⟩
    · rw [← hsplit, implementsText, hempty]
      simp
    · rw [append_nil, hread.other 4 (by decide), hparents]
      rfl
    · rw [append_nil, hread.list, interfacesText, hparent, hempty]
      rfl
    · intro index hindex
      rw [append_nil]
      exact hread.other index (by omega)
    · exact hread.rest_of_plain hplain.types_interfaceList (by simp [hlist, i.ne_nil])

/-- With a parent the first clause takes everything, and no second one follows. -/
theorem Header.exists_clausesRead_of_parent (h : Header) (bound : Nat)
    (hparent : h.parent = some p) :
    ∃ taken rest groups, clauseLead "extends" ++ (p.text ++ (h.implementsText ++ " \x7b".toList)) =
        taken ++ rest ∧
      (clause "extends" 4 ++ clause "implements" 5).Leads bound taken rest groups ∧
      h.ClausesRead rest groups := by
  have hinterfaces : h.interfacesText = [] := by simp [interfacesText, hparent]
  obtain ⟨taken, rest, groups, hsplit, hleads, hread⟩ := exists_leads_clause bound "extends" 4 rfl
    (head?_isBlank_token p (h.implementsText ++ " \x7b".toList))
  -- no clause begins where the first one stops
  have habsent : (clause "implements" 5).Leads bound [] rest [] := by
    rcases hread.place with ⟨hrest, -⟩ | hrest
    · rw [hrest]
      exact leads_clause_of_absent "implements" 5 rfl (by simp [spaced])
    · rw [hrest]
      refine leads_clause_of_solid ?_
      have hstop := head?_dropWhile isTypeListChar (p.text ++ (h.implementsText ++ " \x7b".toList))
      cases hd : ((p.text ++ (h.implementsText ++ " \x7b".toList)).dropWhile isTypeListChar).head? with
      | none => rfl
      | some c =>
        rw [hd] at hstop
        exact isBlank_of_isTypeListChar hstop
  refine ⟨taken ++ [], rest, [] ++ groups, ?_, Leads.append hleads habsent, ?_, ?_, ?_,
    fun hplain => ?_⟩
  · rw [hsplit, append_nil]
  · rw [nil_append, hread.list, parentsText, hparent]
  · rw [nil_append, hread.other 5 (by decide), hinterfaces]
    rfl
  · exact fun index hindex => hread.other index (by omega)
  · rw [← append_assoc] at hread
    exact hread.rest_of_plain (hplain.types_extended hparent) (by simp [p.ne_nil])

theorem Header.exists_clausesRead (h : Header) (bound : Nat) :
    ∃ taken rest groups, h.extendsText ++ (h.implementsText ++ " \x7b".toList) = taken ++ rest ∧
      (clause "extends" 4 ++ clause "implements" 5).Leads bound taken rest groups ∧
      h.ClausesRead rest groups := by
  cases hparent : h.parent with
  | none =>
    rw [extendsText, hparent, nil_append]
    exact h.exists_clausesRead_of_orphan bound hparent
  | some p =>
    rw [extendsText, hparent, append_assoc]
    exact h.exists_clausesRead_of_parent bound hparent

/-! ## What is found -/

def declarationOf (m : Match) : TypeDeclaration :=
  ⟨String.ofList (m.group 3), (words (m.group 1)).map String.ofList, commaPieces (m.group 4),
    commaPieces (m.group 5)⟩

theorem types_class (code : List Char) :
    types code "class" = ((typePattern "class").findAll code).map declarationOf := rfl

theorem refuses_modifierRound : modifierRound.Refuses (some 'c') :=
  ⟨by decide +kernel, by decide +kernel⟩

theorem length_le_modifiersText (ms : List (Modifier typeModifiers)) :
    ms.length ≤ (modifiersText ms).length := by
  induction ms with
  | nil => exact Nat.le_refl _
  | cons m ms ih =>
    have hcons := modifiersText_cons m ms []
    rw [append_nil, append_nil] at hcons
    rw [hcons, length_cons, length_append, Modifier.text, spaced, length_append, length_singleton]
    omega

namespace Header

/-- The first type found at a header whose name is made of word characters. -/
def seen (h : Header) : TypeDeclaration where
  name := String.ofList h.name.text
  modifiers := h.modifiers.getLast?.toList.map Modifier.word
  parents := commaPieces h.parentsText
  interfaces := commaPieces h.interfacesText

theorem head?_clauses (h : Header) :
    (h.extendsText ++ (h.implementsText ++ " \x7b".toList)).head? = some ' ' := by
  rw [extendsText, implementsText]
  cases h.parent <;> cases h.interfaces.isEmpty <;> rfl

theorem exists_leads_header (h : Header) (hname : ∀ c ∈ h.name.text, isWord c) :
    ∃ taken rest groups, h.text = taken ++ rest ∧ taken ≠ [] ∧
      (typePattern "class").Leads h.text.length taken rest groups ∧
      groups.lookup 1 = h.modifiers.getLast?.map Modifier.text ∧
      groups.lookup 3 = some h.name.text ∧ (groups.lookup 4).getD [] = h.parentsText ∧
      (groups.lookup 5).getD [] = h.interfacesText ∧
      (h.Plain → ∀ c ∈ rest, c = ' ' ∨ c = '\x7b') := by
  obtain ⟨taken, rest, groups, hsplit, hleads, hread⟩ := h.exists_clausesRead h.text.length
  have hbound : h.modifiers.length ≤ h.text.length := by
    have hmodifiers := length_le_modifiersText h.modifiers
    rw [text, length_append]
    omega
  have hstop : (taken ++ rest).head?.any isWord = false := by
    rw [← hsplit, h.head?_clauses]
    decide
  have hmodifiers : (star modifierRound).Leads h.text.length (modifiersText h.modifiers)
      (spaced "class" ++ (h.name.text ++ taken) ++ rest) _ :=
    leads_modifiers h.modifiers hbound rfl (.of_refuses refuses_modifierRound)
  have hkeyword : (lit "class" ++ blanks1).Leads h.text.length (spaced "class")
      (h.name.text ++ taken ++ rest) [] :=
    leads_spaced "class" (by rw [append_assoc]; exact head?_isBlank_token h.name _)
  have hnamed : (group 3 (many1 isWord)).Leads h.text.length h.name.text (taken ++ rest) _ :=
    (Leads.many1 h.name.ne_nil hname hstop).group 3
  have hlookup : ∀ index, ((groups ++ [(3, h.name.text)] ++ []) ++
      h.modifiers.reverse.flatMap modifierGroups).lookup index =
        ((groups.lookup index).or ([(3, h.name.text)].lookup index)).or
          ((h.modifiers.reverse.flatMap modifierGroups).lookup index) := by
    intro index
    rw [append_nil, lookup_append, lookup_append]
  refine ⟨modifiersText h.modifiers ++ (spaced "class" ++ (h.name.text ++ taken)), rest, _, ?_,
    by simp [spaced], hmodifiers.append (hkeyword.append (hnamed.append hleads)), ?_, ?_, ?_, ?_,
    hread.rest_of_plain⟩
  · rw [text, hsplit]
    simp
  · rw [hlookup, hread.other 1 (by decide), lookup_modifierGroups]
    rfl
  · rw [hlookup, hread.other 3 (by decide)]
    rfl
  · rw [hlookup, lookup_modifierGroups_of_lt _ (by decide), Option.or_none]
    exact (congrArg (Option.getD · []) Option.or_none).trans hread.parents
  · rw [hlookup, lookup_modifierGroups_of_lt _ (by decide), Option.or_none]
    exact (congrArg (Option.getD · []) Option.or_none).trans hread.interfaces

theorem refuses_after_header :
    ∀ o ∈ [none, some ' ', some '\x7b'], (typePattern "class").Refuses o := by
  have htakes : ∀ o ∈ [none, some ' ', some '\x7b'], (typePattern "class").takes o = false := by
    decide +kernel
  exact fun o ho => ⟨htakes o ho, rfl⟩

theorem words_modifierText (o : Option (Modifier typeModifiers)) :
    (words ((o.map Modifier.text).getD [])).map String.ofList = o.toList.map Modifier.word := by
  cases o with
  | none => rfl
  | some m =>
    obtain ⟨hne, hword⟩ := areWords_typeModifiers.word m.word m.mem
    have hwords : words (m.word.toList ++ ' ' :: []) = m.word.toList :: words [] :=
      words_append ⟨hne, fun c hc => isBlank_of_isAsciiWord (hword c hc)⟩ rfl []
    simp only [Option.map_some, Option.getD_some, Option.toList_some, map_cons,
      map_nil, Modifier.text, spaced, hwords]
    simp [words, wordsFrom]

/-- What `types` finds at a header: first what is `seen` there, and with plain names nothing
else. -/
theorem exists_types_eq (h : Header) (hname : ∀ c ∈ h.name.text, isWord c) :
    ∃ others, types h.text "class" = h.seen :: others ∧ (h.Plain → others = []) := by
  obtain ⟨taken, rest, groups, htext, hne, hleads, hone, hthree, hfour, hfive, hrest⟩ :=
    h.exists_leads_header hname
  obtain ⟨m, -, -, hgroups, hfound⟩ := hleads.searchFrom (.nil _ _) (c := .start h.text) htext hne
  have hseen : declarationOf m = h.seen := by
    simp only [declarationOf, seen, Match.group, hgroups, hthree, hfour, hfive, hone,
      words_modifierText, Option.getD_some]
  rw [types_class, findAll_eq_searchFrom, hfound, map_cons, hseen]
  refine ⟨_, rfl, fun hplain => ?_⟩
  have hpasses : Passes (typePattern "class") rest [] := by
    refine .of_refuses fun c hc => refuses_after_header _ ?_
    rcases hrest hplain c hc with rfl | rfl <;> simp
  rw [hpasses.searchFrom_eq_nil (refuses_after_header none mem_cons_self) rfl]
  rfl

/-- The pieces of a list with a comma and a space between its members and a space after the last,
if they are cut at the commas; `lead` stands before the first. -/
def loosePieces (lead : List Char) : List (List Char) → List String
  | [] => []
  | [piece] => [String.ofList (lead ++ piece ++ [' '])]
  | piece :: piece' :: pieces =>
    String.ofList (lead ++ piece) :: loosePieces [' '] (piece' :: pieces)

/-- **What is reported of a header with plain names**: the last modifier alone; everything from the
parent to the brace as parents, cut at the commas; and interfaces only if there is no parent. -/
def reported (h : Header) : TypeDeclaration where
  name := String.ofList h.name.text
  modifiers := h.modifiers.getLast?.toList.map Modifier.word
  parents :=
    match h.parent, h.interfaces with
    | none, _ => []
    | some p, [] => loosePieces [] [p.text]
    | some p, i :: others =>
      loosePieces [] ((p.text ++ clauseLead "implements" ++ i.text) :: others.map Token.text)
  interfaces := if h.parent.isSome then [] else loosePieces [] (h.interfaces.map Token.text)

end Header

/-- Cut at its commas, a list is cut before the space that follows each of them. -/
theorem splitAt_joinWith_loose (hlead : ',' ∉ lead) (h : ∀ q ∈ piece :: pieces, ',' ∉ q) :
    (splitAt ',' (lead ++ joinWith [',', ' '] (piece :: pieces) ++ [' '])).map
      String.ofList = Header.loosePieces lead (piece :: pieces) := by
  induction pieces generalizing lead piece with
  | nil =>
    have hpiece := h piece mem_cons_self
    show (splitAt ',' (lead ++ piece ++ [' '])).map _ = _
    rw [splitAt_of_not_mem (by simp [hlead, hpiece])]
    rfl
  | cons piece' pieces ih =>
    have hmore := @ih [' '] piece' (by decide) fun q hq => h q (mem_cons_of_mem _ hq)
    rw [splitAt_joinWith_cons hlead (h piece mem_cons_self), map_cons, hmore]
    rfl

theorem commaPieces_joinWith (h : ∀ q ∈ piece :: pieces, ',' ∉ q) :
    commaPieces (joinWith [',', ' '] (piece :: pieces) ++ [' ']) =
      Header.loosePieces [] (piece :: pieces) := by
  have hne : (joinWith [',', ' '] (piece :: pieces) ++ [' ']).isEmpty = false := by simp
  rw [commaPieces, hne]
  exact splitAt_joinWith_loose not_mem_nil h

theorem comma_not_mem_token (i : Token) : ',' ∉ i.text := by
  intro hc
  exact absurd (i.plain ',' hc) (by decide)

theorem comma_not_mem_tokens (is : List Token) : ∀ q ∈ is.map Token.text, ',' ∉ q := by
  intro q hq
  obtain ⟨i, -, rfl⟩ := mem_map.mp hq
  exact comma_not_mem_token i

theorem Header.Plain.commaPieces_parentsText (hplain : h.Plain) :
    commaPieces h.parentsText = h.reported.parents := by
  rw [parentsText, reported]
  cases hparent : h.parent with
  | none => rfl
  | some p =>
    have htaken := (stretch_brace (hplain.types_extended hparent)).1
    rw [append_assoc] at htaken
    cases hinterfaces : h.interfaces with
    | nil =>
      have himplements : h.implementsText = [] := by simp [implementsText, hinterfaces]
      rw [himplements, append_nil] at htaken
      simp only [himplements, htaken]
      exact commaPieces_joinWith fun q hq => comma_not_mem_tokens [p] q hq
    | cons i others =>
      -- the parent, the keyword and the first interface stand before the first comma
      have himplements : h.implementsText = clauseLead "implements" ++
          joinWith [',', ' '] (i.text :: others.map Token.text) := by
        simp [implementsText, interfaceList, hinterfaces]
      have hjoin : p.text ++ h.implementsText = joinWith [',', ' ']
          ((p.text ++ clauseLead "implements" ++ i.text) :: others.map Token.text) := by
        rw [himplements, joinWith_cons_append, append_assoc]
      simp only [htaken, hjoin]
      refine commaPieces_joinWith fun q hq => ?_
      rcases mem_cons.mp hq with rfl | hq
      · simp [comma_not_mem_token, clauseLead, spaced]
      · exact comma_not_mem_tokens others q hq

theorem Header.Plain.commaPieces_interfacesText (hplain : h.Plain) :
    commaPieces h.interfacesText = h.reported.interfaces := by
  rw [interfacesText, reported]
  cases hparent : h.parent with
  | some p => rfl
  | none =>
    cases hinterfaces : h.interfaces with
    | nil => rfl
    | cons i others =>
      have htaken := (stretch_brace hplain.types_interfaceList).1
      simp only [Option.isSome_none, isEmpty_cons, Bool.or_self, Bool.false_eq_true,
        if_false, htaken]
      rw [interfaceList, hinterfaces]
      exact commaPieces_joinWith fun q hq => comma_not_mem_tokens (i :: others) q hq

/-- With plain names what is `seen` is what is `reported`. -/
theorem Header.Plain.seen_eq (hplain : h.Plain) : h.seen = h.reported := by
  show TypeDeclaration.mk _ _ (commaPieces h.parentsText) (commaPieces h.interfacesText) =
    TypeDeclaration.mk _ _ h.reported.parents h.reported.interfaces
  rw [hplain.commaPieces_parentsText, hplain.commaPieces_interfacesText]

/-! ## When a header is read as it is meant -/

/-- `commaPieces` of a list of types that runs into white space are not names. -/
theorem commaPieces_takeWhile_ne {i : Token} (others : List Token) {more : List Char}
    (hspace : ' ' ∈ more.takeWhile isTypeListChar) :
    commaPieces ((i.text ++ more).takeWhile isTypeListChar) ≠
      (i :: others).map fun j => String.ofList j.text := by
  intro h
  have hpieces : splitAt ',' ((i.text ++ more).takeWhile isTypeListChar) =
      (i :: others).map Token.text := by
    rw [commaPieces] at h
    split at h
    · cases h
    · have hinjective : Function.Injective String.ofList := fun _ _ => String.ofList_injective
      refine hinjective.list_map ?_
      rw [h, map_map]
      rfl
  -- the first name is taken as a whole, so the space is taken as well
  have hfirst : i.text <+: (i.text ++ more).takeWhile isTypeListChar :=
    prefix_of_splitAt hpieces
  have htypes : ∀ c ∈ i.text, isTypeListChar c :=
    fun c hc => mem_takeWhile_imp (hfirst.subset hc)
  have hmem : ' ' ∈ (i.text ++ more).takeWhile isTypeListChar := by
    rw [takeWhile_append_of_pos htypes]
    exact mem_append_right _ hspace
  obtain ⟨piece, hpiece, hin⟩ := exists_mem_splitAt hmem (by decide : ' ' ≠ ',')
  rw [hpieces] at hpiece
  obtain ⟨j, -, rfl⟩ := mem_map.mp hpiece
  exact absurd (j.plain ' ' hin) (by decide)

theorem Header.parent_eq_none (hseen : h.seen = h.declared) : h.parent = none := by
  cases hparent : h.parent with
  | none => rfl
  | some p =>
    have hparents : commaPieces h.parentsText = h.declared.parents :=
      congrArg TypeDeclaration.parents hseen
    rw [parentsText, declared, hparent] at hparents
    refine absurd hparents (commaPieces_takeWhile_ne [] ?_)
    rw [implementsText]
    cases h.interfaces.isEmpty <;> exact mem_cons_self

theorem Header.interfaces_eq_nil (hseen : h.seen = h.declared) : h.interfaces = [] := by
  cases hempty : h.interfaces.isEmpty with
  | true => exact List.isEmpty_iff.mp hempty
  | false =>
    obtain ⟨i, others, more, hinterfaces, hlist, hmore⟩ := h.exists_interfaceList_eq hempty
    have hpieces : commaPieces h.interfacesText = h.declared.interfaces :=
      congrArg TypeDeclaration.interfaces hseen
    rw [interfacesText, parent_eq_none hseen, hempty, hlist, declared, hinterfaces,
      append_assoc] at hpieces
    refine absurd hpieces (commaPieces_takeWhile_ne others ?_)
    rcases hmore with rfl | ⟨rest, rfl⟩
    · exact mem_cons_self
    · exact mem_cons_of_mem _ mem_cons_self

/-- **Class headers.** With plain names, the one type found at a header has its last modifier, and
what follows the first clause is all in its list. It is what the header says exactly if there is at
most one modifier and no clause, and the name is made of word characters. -/
theorem types_header (h : Header) :
    (h.Plain → types h.text "class" = [h.reported]) ∧
      (types h.text "class" = [h.declared] ↔
        h.modifiers.length ≤ 1 ∧ h.parent = none ∧ h.interfaces = [] ∧
          ∀ c ∈ h.name.text, Text.isWord c = true) := by
  have hplain : h.Plain → types h.text "class" = [h.reported] := by
    intro hplain
    obtain ⟨others, htypes, hothers⟩ := h.exists_types_eq hplain.name
    rw [htypes, hothers hplain, hplain.seen_eq]
  refine ⟨hplain, ?_, ?_⟩
  · intro htypes
    -- the name is that of a match, so it is made of word characters
    have hname : ∀ c ∈ h.name.text, isWord c = true := by
      have hmem : h.declared ∈ types h.text "class" := by
        rw [htypes]
        exact mem_singleton_self _
      obtain ⟨m, hm, hdeclared⟩ := mem_map.mp hmem
      have hgroup : m.group 3 = h.name.text :=
        String.ofList_injective (congrArg TypeDeclaration.name hdeclared)
      rw [← hgroup]
      exact isWord_of_mem_group_three hm
    obtain ⟨others, hfound, -⟩ := h.exists_types_eq hname
    have hseen : h.seen = h.declared := by
      rw [hfound] at htypes
      exact (cons.inj htypes).1
    have hmodifiers : (h.modifiers.getLast?.toList.map Modifier.word).length =
        (h.modifiers.map Modifier.word).length :=
      congrArg (fun d => d.modifiers.length) hseen
    refine ⟨?_, Header.parent_eq_none hseen, Header.interfaces_eq_nil hseen, hname⟩
    rw [length_map, length_map] at hmodifiers
    rw [← hmodifiers]
    cases h.modifiers.getLast? <;> simp
  · rintro ⟨hfew, hparent, hinterfaces, hname⟩
    rw [hplain ⟨hname, by simp [hparent], by simp [hinterfaces]⟩]
    have hlast : h.modifiers.getLast?.toList = h.modifiers := by
      cases hmodifiers : h.modifiers with
      | nil => rfl
      | cons m ms =>
        rw [hmodifiers] at hfew
        obtain rfl : ms = [] := by simpa using hfew
        rfl
    simp [Header.reported, Header.declared, hparent, hinterfaces, hlast, Header.loosePieces]

/-- The modifier of a class that is seen everywhere. -/
def publicModifier : Modifier typeModifiers :=
  ⟨"public", by decide⟩

/-- A header with two modifiers and both clauses. -/
def Header.twoClauses : Header where
  modifiers := [publicModifier, ⟨"abstract", by decide⟩]
  name := ⟨['N'], cons_ne_nil _ _, by decide⟩
  parent := some ⟨['S'], cons_ne_nil _ _, by decide⟩
  interfaces := [⟨['I'], cons_ne_nil _ _, by decide⟩, ⟨['J'], cons_ne_nil _ _, by decide⟩]

theorem types_header_two_clauses :
    Header.twoClauses.Plain ∧
      types "public abstract class N extends S implements I, J \x7b".toList "class" =
        [⟨"N", ["abstract"], ["S implements I", " J "], []⟩] := by
  have hplain : Header.twoClauses.Plain := by
    refine ⟨by decide, ?_, ?_⟩
    · intro p hp
      cases hp
      decide
    · intro i hi
      simp only [Header.twoClauses, mem_cons, not_mem_nil, or_false] at hi
      rcases hi with rfl | rfl <;> decide
  exact ⟨hplain, (types_header Header.twoClauses).1 hplain⟩

/-- The first modifier is lost, and the parent and the interfaces are not told apart. -/
theorem types_two_clauses_ne :
    types "public abstract class N extends S implements I, J \x7b".toList "class" ≠
      [⟨"N", ["public", "abstract"], ["S"], ["I", "J"]⟩] := by
  decide +kernel

end Java

end CodeAtlas
