import CodeAtlas.Proofs.Endpoints

/-!
# Base paths

The base path of a class is looked for from any `@RequestMapping` to the next class, whatever stands
between them. So the first such annotation after the class before decides, be it one of a method
there, and the path is the preferred one among all annotations from it on (`basesFrom_pieces`).
-/

open List

namespace CodeAtlas

open Pattern Outline Text

namespace Java

variable {bound : Nat} {s t u : State} {c : Cursor} {name rest : List Char}

/-- What stands before the class in `basePattern`. -/
def baseLead : Pattern :=
  lit "@" ++ (group 1 (anyOf ["RequestMapping", "Path"]) ++ (blanks ++ opt (group 2 arguments)))

/-- `basePattern`, in three parts. -/
theorem advance_basePattern (next : State → Option State) (s : State) :
    advance bound basePattern next s =
      advance bound (baseLead ++ (fewest anyChar ++ classTail 3)) next s := rfl

theorem mem_ways_basePattern : t ∈ ways bound basePattern s ↔
      t ∈ ways bound (baseLead ++ (fewest anyChar ++ classTail 3)) s :=
  mem_ways_congr fun next => advance_basePattern next s

/-! ## Places without a base path -/

/-- `basePattern` begins at an annotation for requests of any kind. -/
theorem exists_rest_of_mem_ways (h : t ∈ ways bound basePattern s) :
    ∃ w ∈ ["RequestMapping", "Path"], ∃ rest, s.cursor.rest = '@' :: (w.toList ++ rest) := by
  obtain ⟨u, hu, -⟩ := mem_ways_append.mp (mem_ways_basePattern.mp h)
  obtain ⟨_, _, hspells, ⟨rest, hrest, -⟩, -⟩ := spells_of_mem_ways hu
  obtain ⟨_, _, hat, _, _, ⟨_, _, ⟨_, hword, rfl⟩, more, _, -, rfl, rfl⟩, rfl, rfl⟩ := hspells
  obtain ⟨rfl, rfl⟩ := spells_lit.mp hat
  obtain ⟨⟨w, hw, rfl⟩, rfl⟩ := spells_anyOf.mp hword
  exact ⟨w, hw, more ++ rest, by simpa using hrest⟩

theorem passes_basePattern {gap : List Char} (hgap : '@' ∉ gap) (rest : List Char) :
    Passes basePattern gap rest :=
  .of_not_mem rfl rfl hgap

variable (n : Note)

/-- `basePattern` does not begin at an annotation for one verb. -/
theorem passes_basePattern_note (hverb : n.verb.isSome) (rest : List Char) :
    Passes basePattern n.text rest := by
  have hname : ∀ v : Verb, ∀ w ∈ ["RequestMapping", "Path"], ∀ more more',
      (mappingName (some v)).toList ++ '(' :: more ≠ w.toList ++ more' := by
    intro v w hw more more' heq
    simp only [mem_cons, not_mem_nil, or_false] at hw
    rcases hw with rfl | rfl <;> cases v <;> simp [mappingName] at heq
  rw [Note.text, passes_cons_iff]
  refine ⟨.of_ways fun bound s hrest t ht => ?_, passes_basePattern n.at_not_mem _⟩
  obtain ⟨w, hw, more', hmore'⟩ := exists_rest_of_mem_ways ht
  obtain ⟨v, hv⟩ := Option.isSome_iff_exists.mp hverb
  rw [hrest, Note.name, hv] at hmore'
  refine hname v w hw (n.inner ++ [')'] ++ rest) more' ?_
  simpa using (cons.inj hmore').2

/-- `basePattern` needs a class. -/
theorem passes_basePattern_clear {text : List Char} (h : Clear text) :
    Passes basePattern text [] := by
  have hparts : Passes (baseLead ++ (fewest anyChar ++ classTail 3)) text [] := by
    intro left hleft _
    rw [append_nil]
    refine .of_suffixes fun left' hleft' => .of_suffixes fun left'' hleft'' => ?_
    exact failsAt_classTail (namesClass_eq_false_iff.mp h.names _
      (hleft''.trans (hleft'.trans hleft))) 3
  exact hparts.of_advance_eq fun bound next s => advance_basePattern next s

/-! ## Finding a base path -/

/-- The path that counts for a class after some annotations: the preferred one from the first
annotation for requests of any kind on. -/
def requestPath? (notes : List Note) : Option (List Char) :=
  (preferred (notes.dropWhile fun n => n.verb.isSome)).map fun n => n.path.text

theorem exists_preferred (notes : List Note) : ∃ n', preferred (n :: notes) = some n' := by
  cases h : preferred (n :: notes) with
  | some n' => exact ⟨n', rfl⟩
  | none =>
    rw [preferred, findSome?_eq_none_iff] at h
    have hkey : n.key ∈ [Key.path, Key.value, Key.sole] := by
      cases n.key <;> decide
    have hnone := h n.key hkey
    simp at hnone

/-- The name of a class and its base path as a match of `basePattern` gives them. -/
def baseOf (m : Match) : List Char × List Char :=
  (m.group 3, (annotationPath? m.text).getD [])

/-- The base paths found from a place on. -/
def basesFrom (bound : Nat) (c : Cursor) : List (List Char × List Char) :=
  (searchFrom basePattern bound c).map baseOf

theorem basePaths_eq_basesFrom (code : List Char) :
    basePaths code = (basesFrom code.length (.start code)).reverse := rfl

theorem basesFrom_gap {gap : List Char} (h : Passes basePattern gap rest)
    (hrest : c.rest = gap ++ rest) : basesFrom bound c = basesFrom bound (c.pass gap rest) := by
  rw [basesFrom, h.searchFrom hrest]
  rfl

theorem clear_pieces (ps : List Piece) : Clear (piecesText ps) := by
  refine Clear.flatMap fun p _ => ?_
  cases p with
  | prose p => exact p.clear
  | note n => exact n.clear_text

/-- `baseLead` takes the annotation of a class as a whole. -/
theorem leads_baseLead (hverb : n.verb = none) (rest : List Char) :
    baseLead.Leads bound n.text rest [(2, '(' :: (n.inner ++ [')'])), (1, n.name)] := by
  have hname : n.name = "RequestMapping".toList := by rw [Note.name, hverb]; rfl
  have hword : (anyOf ["RequestMapping", "Path"]).Leads bound "RequestMapping".toList
      ('(' :: (n.inner ++ [')']) ++ rest) [] := .anyOf (by decide) (by simp) _
  have hblank : blanks.Leads bound [] ('(' :: (n.inner ++ [')']) ++ rest) [] :=
    .many (forall_mem_nil _) rfl
  rw [Note.text, hname]
  exact (Leads.lit "@" _).append ((hword.group 1).append
    (hblank.append ((n.leads_arguments rest).group 2).opt))

/-- From an annotation for requests of any kind `basePattern` runs to the next class. -/
theorem leads_basePattern (hverb : n.verb = none) (ps : List Piece) (hne : name ≠ [])
    (hname : ∀ d ∈ name, isWord d) (hend : rest.head?.any isWord = false) :
    basePattern.Leads bound (n.text ++ (piecesText ps ++ (spaced "class" ++ name))) rest
      ([(3, name)] ++ [(2, '(' :: (n.inner ++ [')'])), (1, n.name)]) := by
  have hclass : (fewest anyChar ++ classTail 3).Leads bound
      (piecesText ps ++ (spaced "class" ++ name)) rest [(3, name)] :=
    .fewest_append ((clear_pieces ps).passes_classTail 3 _) (leads_classTail 3 hne hname hend)
  have hbase : baseLead.Leads bound n.text (piecesText ps ++ (spaced "class" ++ name) ++ rest) _ :=
    leads_baseLead n hverb _
  have hleads := hbase.append hclass
  exact hleads

theorem not_mem_class {d : Char} (hname : ∀ e ∈ name, isWord e)
    (hd : isWord d = false) (hkeyword : d ∉ spaced "class") : d ∉ spaced "class" ++ name := by
  intro hmem
  rcases mem_append.mp hmem with hmem | hmem
  · exact hkeyword hmem
  · rw [hname d hmem] at hd
    cases hd

theorem basesFrom_note (hverb : n.verb = none) (ps : List Piece) (hne : name ≠ [])
    (hname : ∀ d ∈ name, isWord d) (hend : rest.head?.any isWord = false)
    (hrest : c.rest = n.text ++ (piecesText ps ++ (spaced "class" ++ (name ++ rest)))) :
    basesFrom bound c = (requestPath? (notesOf (.note n :: ps))).toList.map (name, ·) ++
      basesFrom bound (c.pass (n.text ++ (piecesText ps ++ (spaced "class" ++ name))) rest) := by
  let taken := n.text ++ (piecesText ps ++ (spaced "class" ++ name))
  have htaken : c.rest = taken ++ rest := by
    rw [hrest]
    simp [taken]
  obtain ⟨m, -, htext, hgroups, hfound⟩ := (leads_basePattern n hverb ps hne hname hend).searchFrom
    (.nil _ _) htaken (by simp [Note.text])
  obtain ⟨n', hn'⟩ : ∃ n', preferred (notesOf (.note n :: ps)) = some n' :=
    exists_preferred n (notesOf ps)
  have hrequest : requestPath? (notesOf (.note n :: ps)) = some n'.path.text := by
    have hnotes : notesOf (.note n :: ps) = n :: notesOf ps := rfl
    rw [requestPath?, hnotes, dropWhile_cons_of_neg (by simp [hverb]), ← hnotes, hn']
    rfl
  -- the text of the match is that of the pieces, with the class after them
  have hbase : baseOf m = (name, n'.path.text) := by
    rw [baseOf, htext, ← Piece.text, ← piecesText_cons,
      annotationPath?_pieces (not_mem_class hname rfl (by decide)) hn', Match.group, hgroups]
    rfl
  rw [basesFrom, hfound, map_cons, hbase, hrequest]
  rfl

/-- **The base path of the next class** is that of the annotations before it. -/
theorem basesFrom_pieces (ps : List Piece) (hne : name ≠ [])
    (hname : ∀ d ∈ name, isWord d) (hend : rest.head?.any isWord = false)
    (hrest : c.rest = piecesText ps ++ (spaced "class" ++ (name ++ rest))) :
    basesFrom bound c = (requestPath? (notesOf ps)).toList.map (name, ·) ++
      basesFrom bound (c.pass (piecesText ps ++ (spaced "class" ++ name)) rest) := by
  induction ps generalizing c with
  | nil =>
    have hrest : c.rest = (spaced "class" ++ name) ++ rest := by
      rw [hrest, append_assoc]
      rfl
    rw [basesFrom_gap (passes_basePattern (not_mem_class hname rfl (by decide)) rest) hrest]
    rfl
  | cons p ps ih =>
    rw [piecesText_cons] at hrest
    have hmore :=
      ih (c := c.pass p.text (piecesText ps ++ (spaced "class" ++ (name ++ rest)))) rfl
    rw [Cursor.pass_pass] at hmore
    rw [piecesText_cons]
    cases p with
    | prose p =>
      rw [basesFrom_gap (passes_basePattern (fun hmem => (p.of_mem hmem).2 rfl) _) hrest]
      exact hmore
    | note n =>
      cases hverb : n.verb with
      | some v =>
        have hnotes : requestPath? (notesOf (.note n :: ps)) = requestPath? (notesOf ps) := by
          simp [requestPath?, notesOf, Piece.note?, hverb]
        rw [basesFrom_gap (passes_basePattern_note n (by rw [hverb]; rfl) _) hrest, hnotes]
        exact hmore
      | none =>
        -- the match runs to the class, whatever annotations are on the way
        exact basesFrom_note n hverb ps hne hname hend hrest

end Java

end CodeAtlas
