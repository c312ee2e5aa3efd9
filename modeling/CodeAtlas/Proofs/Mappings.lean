import CodeAtlas.Proofs.ClassNames
import CodeAtlas.Proofs.Quotes

/-!
# Mapping annotations

A mapping annotation gives a path in quotes: as its only argument, or under `value` or `path`, with
further arguments after it. In a text with several of them the path is not taken from the first one
but from the first under `path`, then from the first under `value`, then from the first that stands
alone (`annotationPath?_pieces`).

Of the pieces into which quotes cut such a text, those before a path end in the way it is given, and
the paths themselves lead up to nothing.
-/

open List

namespace CodeAtlas

open Pattern Outline Text

namespace Java

variable {bound : Nat}

/-- What is written in the parentheses before a path. -/
def Key.naming : Key → List Char
  | sole => []
  | value => "value = ".toList
  | path => "path = ".toList

/-! ## Annotations -/

/-- The verbs that have an annotation of their own. -/
inductive Verb where
  | get
  | post
  | put
  | delete
  | patch
  deriving DecidableEq, Repr

def Verb.word : Verb → String
  | get => "GET"
  | post => "POST"
  | put => "PUT"
  | delete => "DELETE"
  | patch => "PATCH"

/-- The name of a mapping annotation: that for one verb, or that for requests of any kind. -/
def mappingName : Option Verb → String
  | none => "RequestMapping"
  | some .get => "GetMapping"
  | some .post => "PostMapping"
  | some .put => "PutMapping"
  | some .delete => "DeleteMapping"
  | some .patch => "PatchMapping"

def isPathChar (c : Char) : Bool :=
  !isBlank c && notAmong "\"()@=" c

/-- A path as written between quotes. -/
structure PathText where
  text : List Char
  ne_nil : text ≠ []
  plain : ∀ c ∈ text, isPathChar c = true

/-- A mapping annotation. Only a path under a name has further arguments after it. -/
structure Note where
  verb : Option Verb
  key : Key
  path : PathText
  further : List Char
  further_plain : ∀ c ∈ further, notAmong "\"@)" c = true
  further_clear : Clear further
  further_sole : key = .sole → further = []

/-- An annotation with a path as its only argument. -/
def Note.sole (verb : Option Verb) (path : PathText) : Note :=
  ⟨verb, .sole, path, [], by simp, .nil, fun _ => rfl⟩

def Note.name (n : Note) : List Char :=
  (mappingName n.verb).toList

def Note.inner (n : Note) : List Char :=
  n.key.naming ++ '"' :: (n.path.text ++ '"' :: n.further)

def Note.text (n : Note) : List Char :=
  '@' :: (n.name ++ '(' :: (n.inner ++ [')']))

theorem PathText.of_mem (p : PathText) {c : Char} (hc : c ∈ p.text) :
    isBlank c = false ∧ c ≠ '"' ∧ c ≠ '(' ∧ c ≠ ')' ∧ c ≠ '@' ∧ c ≠ '=' := by
  simpa [isPathChar, notAmong] using p.plain c hc

namespace Note

variable (n : Note)

theorem name_ne_nil : n.name ≠ [] := by
  rw [name]
  rcases n.verb with _ | v
  · decide
  · cases v <;> decide

theorem isAsciiWord_of_mem_name {c : Char} (hc : c ∈ n.name) : isAsciiWord c := by
  have hall : ∀ verb, ∀ d ∈ (mappingName verb).toList, isAsciiWord d := by
    intro verb
    rcases verb with _ | v
    · decide
    · cases v <;> decide
  exact hall n.verb c hc

theorem of_mem_further {c : Char} (hc : c ∈ n.further) : c ≠ '"' ∧ c ≠ '@' ∧ c ≠ ')' := by
  simpa [notAmong] using n.further_plain c hc

/-- The text of an annotation before the path. -/
def opening : List Char :=
  '@' :: n.name ++ '(' :: n.key.naming

theorem text_append (rest : List Char) :
    n.text ++ rest = n.opening ++ '"' :: (n.path.text ++ '"' :: (n.further ++ ')' :: rest)) := by
  simp [text, inner, opening]

theorem quote_not_mem_opening : '"' ∉ n.opening := by
  have hnaming : ∀ k : Key, '"' ∉ k.naming := by
    intro k
    cases k <;> decide
  have hname : '"' ∉ n.name := by
    intro hmem
    have hword := n.isAsciiWord_of_mem_name hmem
    revert hword
    decide
  simp [opening, hname, hnaming]

/-- What stands before the path `ends` in the way the path is given. -/
theorem ends_opening (k : Key) (lead : List Char) : k.ends (lead ++ n.opening) = (n.key == k) := by
  have hcut : ∀ naming, lead ++ ('@' :: n.name ++ '(' :: naming) =
      (lead ++ '@' :: n.name) ++ ['('] ++ naming := by simp
  have hnamed : ∀ word : String, word.toList ≠ [] →
      (∀ c ∈ word.toList, isBlank c = false) →
        k.ends ((lead ++ '@' :: n.name) ++ ['('] ++ (word.toList ++ " = ".toList)) =
          (k != .sole && k.word.isSuffixOf word.toList) := by
    intro word hne hsolid
    rw [← append_assoc]
    exact k.ends_named hne hsolid _ (.inl rfl)
  rw [opening, hcut]
  cases n.key with
  | sole =>
    have hnaming : Key.sole.naming = [] := rfl
    rw [hnaming, append_nil, Key.ends_append (by decide) (by simp)]
    cases k <;> rfl
  | value => exact (hnamed "value" (by decide) (by decide)).trans (by cases k <;> decide)
  | path => exact (hnamed "path" (by decide) (by decide)).trans (by cases k <;> decide)

/-- A path leads up to no other: it lacks the `mark` that stands before every path. -/
theorem ends_path (k : Key) : k.ends n.path.text = false := by
  refine Key.ends_eq_false fun hmem => ?_
  have hmark := n.path.of_mem hmem
  cases k
  · exact hmark.2.2.1 rfl
  · exact hmark.2.2.2.2.2 rfl
  · exact hmark.2.2.2.2.2 rfl

/-- What follows the path `closes` it in the way the path is given. -/
theorem exists_closes (rest : List Char) :
    ∃ after pieces, splitAt '"' (n.further ++ ')' :: rest) = after :: pieces ∧
      n.key.closes after := by
  obtain ⟨after, pieces, hsplit⟩ :=
    exists_cons_of_ne_nil (splitAt_ne_nil '"' (n.further ++ ')' :: rest))
  refine ⟨after, pieces, hsplit, ?_⟩
  cases hkey : n.key with
  | sole =>
    rw [n.further_sole hkey, nil_append, Text.splitAt, if_neg (by decide)] at hsplit
    split at hsplit <;> cases hsplit <;> rfl
  | value | path => rfl

end Note

/-! ## Texts with annotations -/

/-- A text that begins no annotation, holds no quotes and names no class. -/
structure Prose where
  text : List Char
  plain : ∀ c ∈ text, notAmong "\"@" c = true
  clear : Clear text

def Prose.empty : Prose :=
  ⟨[], by simp, .nil⟩

theorem Prose.of_mem (p : Prose) {c : Char} (hc : c ∈ p.text) : c ≠ '"' ∧ c ≠ '@' := by
  simpa [notAmong] using p.plain c hc

/-- A part of a source text: an annotation, or what stands between two of them. -/
inductive Piece where
  | prose (p : Prose)
  | note (n : Note)

def Piece.text : Piece → List Char
  | prose p => p.text
  | note n => n.text

def Piece.note? : Piece → Option Note
  | prose _ => none
  | note n => some n

def piecesText (ps : List Piece) : List Char :=
  ps.flatMap Piece.text

/-- The annotations among some pieces. -/
def notesOf (ps : List Piece) : List Note :=
  ps.filterMap Piece.note?

theorem piecesText_cons (p : Piece) (ps : List Piece) (rest : List Char) :
    piecesText (p :: ps) ++ rest = p.text ++ (piecesText ps ++ rest) := by
  rw [piecesText, flatMap_cons, append_assoc]
  rfl

/-- The annotation whose path is taken: one with a `path`, else one with a `value`, else one with a
path alone, and of several such the first. -/
def preferred (notes : List Note) : Option Note :=
  [Key.path, Key.value, Key.sole].findSome? fun k => notes.find? (·.key == k)

theorem preferred_eq (notes : List Note) :
    preferred notes = ((notes.find? (·.key == .path)).or (notes.find? (·.key == .value))).or
      (notes.find? (·.key == .sole)) := by
  rw [preferred, findSome?_cons, findSome?_cons, findSome?_cons]
  cases notes.find? (·.key == .path) <;> cases notes.find? (·.key == .value) <;>
    cases notes.find? (·.key == .sole) <;> rfl

/-- `pieceAfter` finds the first annotation that gives its path in the way looked for. -/
theorem pieceAfter_pieces (k : Key) {ps : List Piece} {lead tail : List Char} (hlead : '"' ∉ lead)
    (htail : '"' ∉ tail) : k.pieceAfter (splitAt '"' (lead ++ (piecesText ps ++ tail))) =
      ((notesOf ps).find? (·.key == k)).map (·.path.text) := by
  induction ps generalizing lead with
  | nil =>
    have hnone : '"' ∉ lead ++ ([] ++ tail) := by simp [hlead, htail]
    rw [piecesText, flatMap_nil, splitAt_of_not_mem hnone]
    rfl
  | cons p ps ih =>
    rw [piecesText_cons]
    cases p with
    | prose p =>
      have hprose : '"' ∉ lead ++ p.text := by
        simpa [hlead] using fun hmem => (p.of_mem hmem).1 rfl
      rw [Piece.text, ← append_assoc]
      exact ih hprose
    | note n =>
      have hfront : '"' ∉ lead ++ n.opening := by simp [hlead, n.quote_not_mem_opening]
      have hpath : '"' ∉ n.path.text := fun hmem => (n.path.of_mem hmem).2.1 rfl
      have hfurther : '"' ∉ n.further ++ [')'] := by
        simpa using fun hmem => (n.of_mem_further hmem).1 rfl
      obtain ⟨after, pieces, hsplit, hcloses⟩ := n.exists_closes (piecesText ps ++ tail)
      have hmore := ih hfurther
      rw [append_assoc, singleton_append, hsplit] at hmore
      rw [Piece.text, n.text_append, ← append_assoc, splitAt_append, splitAt_append,
        splitAt_of_not_mem hfront, splitAt_of_not_mem hpath, hsplit]
      show k.pieceAfter ((lead ++ n.opening) :: n.path.text :: after :: pieces) = _
      by_cases hkey : n.key = k
      · subst hkey
        simp [Key.pieceAfter, pieceAfter, n.ends_opening, n.path.ne_nil, hcloses, notesOf,
          Piece.note?]
      · rw [Key.pieceAfter, pieceAfter_cons (by simp [n.ends_opening, hkey]),
          pieceAfter_cons (n.ends_path k)]
        refine hmore.trans ?_
        simp [notesOf, Piece.note?, hkey]

theorem PathText.trim_text (p : PathText) : trim p.text = p.text := by
  have hfirm : Firm isBlank p.text := .of_forall fun c hc => (p.of_mem hc).1
  have henclosed := trimBoth_enclosed [] [] (by simp) (by simp) hfirm
  rwa [nil_append, append_nil] at henclosed

/-- **`annotationPath?` of a text with annotations** is that of the `preferred` one. -/
theorem annotationPath?_pieces {ps : List Piece} {tail : List Char} (htail : '"' ∉ tail)
    {n : Note} (h : preferred (notesOf ps) = some n) :
    annotationPath? (piecesText ps ++ tail) = some n.path.text := by
  have hkey : ∀ k : Key, k.pieceAfter (splitAt '"' (piecesText ps ++ tail)) =
      ((notesOf ps).find? (·.key == k)).map (·.path.text) :=
    fun k => pieceAfter_pieces k (not_mem_nil) htail
  have hchosen : pathAmong (splitAt '"' (piecesText ps ++ tail)) = some n.path.text := by
    rw [pathAmong, hkey, hkey, hkey, ← Option.or_assoc, ← Option.or_assoc, ← Option.map_or,
      ← Option.map_or, ← preferred_eq, h]
    rfl
  rw [annotationPath?_eq, hchosen, Option.map_some, n.path.trim_text]

/-! ## What an annotation says -/

namespace Note

variable (n : Note)

theorem not_mem_inner {c : Char} (hquote : c ≠ '"') (hnaming : c ∉ n.key.naming)
    (hpath : c ∉ n.path.text) (hfurther : c ∉ n.further) : c ∉ n.inner := by
  simp [inner, hquote, hnaming, hpath, hfurther]

/-- The arguments end at the first closing parenthesis. -/
theorem close_not_mem_inner : ')' ∉ n.inner :=
  n.not_mem_inner (by decide) (by cases n.key <;> decide)
    (fun hmem => (n.path.of_mem hmem).2.2.2.1 rfl) fun hmem => (n.of_mem_further hmem).2.2 rfl

theorem notAmong_of_mem_inner {c : Char} (hc : c ∈ n.inner) : notAmong ")" c := by
  simpa [notAmong] using fun heq : c = ')' => n.close_not_mem_inner (heq ▸ hc)

/-- An annotation begins at its first character only. -/
theorem at_not_mem : '@' ∉ n.name ++ '(' :: (n.inner ++ [')']) := by
  have hname : '@' ∉ n.name := fun hmem => absurd (n.isAsciiWord_of_mem_name hmem) (by decide)
  have hinner : '@' ∉ n.inner :=
    n.not_mem_inner (by decide) (by cases n.key <;> decide)
      (fun hmem => (n.path.of_mem hmem).2.2.2.2.1 rfl) fun hmem => (n.of_mem_further hmem).2.1 rfl
  simp [hname, hinner]

/-- No class is named in an annotation. -/
theorem clear_text : Clear n.text := by
  have hnaming : ∀ k : Key, Clear k.naming := by
    intro k
    cases k <;> exact ⟨by decide, by decide⟩
  have hname : Clear ('@' :: n.name ++ ['(']) := by
    refine .of_solid (fun c hc => ?_) (by decide) (by decide)
    rcases mem_cons.mp hc with rfl | hc
    · decide
    · exact isBlank_of_isAsciiWord (n.isAsciiWord_of_mem_name hc)
  have hpath : Clear ('"' :: n.path.text ++ ['"']) := by
    refine .of_solid (fun c hc => ?_) (by decide) (by decide)
    rcases mem_cons.mp hc with rfl | hc
    · decide
    · exact (n.path.of_mem hc).1
  have hclose : Clear ([] ++ [')']) := .of_solid (by simp) (by decide) (by decide)
  have htext : n.text = ('@' :: n.name ++ ['(']) ++ (n.key.naming ++
      (('"' :: n.path.text ++ ['"']) ++ (n.further ++ [')']))) := by
    simp [text, inner]
  rw [htext]
  exact hname.append ((hnaming _).append (hpath.append (n.further_clear.append hclose)))

theorem leads_arguments (rest : List Char) :
    arguments.Leads bound ('(' :: (n.inner ++ [')'])) rest [] :=
  ((Leads.lit "(" _).append (.many (fun _ => n.notAmong_of_mem_inner) rfl)).append (.lit ")" rest)

/-- `annotationPattern` takes an annotation as a whole, whatever white space follows it. -/
theorem collectAll_text {b : List Char} (hb : ∀ c ∈ b, isBlank c) :
    annotationPattern.collectAll (n.text ++ b) = [n.text] := by
  have hname : ∀ c ∈ n.name, isWord c :=
    fun c hc => isWord_of_isAsciiWord (n.isAsciiWord_of_mem_name hc)
  have hleads : annotationPattern.Leads (n.text ++ b).length n.text b [] :=
    ((Leads.lit "@" _).append (.many1 n.name_ne_nil hname rfl)).append
      (n.leads_arguments b).opt
  have hblank : ∀ c ∈ blankChars, annotationPattern.takes (some c) = false := by decide
  have hend : Passes annotationPattern b [] :=
    .of_refuses fun c hc => ⟨hblank c (mem_blankChars (hb c hc)), rfl⟩
  obtain ⟨m, -, htext, -, hfound⟩ := hleads.searchFrom (.nil _ _) (c := .start (n.text ++ b)) rfl
    (by simp [text])
  rw [collectAll, findAll_eq_searchFrom, hfound, hend.searchFrom_eq_nil ⟨by decide, rfl⟩ rfl,
    map_singleton, htext]

theorem annotationName?_text : annotationName? n.text = some (mappingName n.verb) := by
  have hleads : (lit "@" ++ group 1 (many1 isAsciiWord)).Leads n.text.length
      ('@' :: n.name) ('(' :: (n.inner ++ [')'])) [(1, n.name)] :=
    (Leads.lit "@" _).append
      ((Leads.many1 n.name_ne_nil (fun _ => n.isAsciiWord_of_mem_name) rfl).group 1)
  obtain ⟨m, hmatch, -, -, -, hgroups⟩ := hleads.matchAt? (c := .start n.text) rfl
  rw [annotationName?, matchStart?, hmatch, Option.map_some, Match.group, hgroups]
  simp [name]

theorem annotationPath?_text : annotationPath? n.text = some n.path.text := by
  have hpieces : n.text = piecesText [.note n] ++ [] := by simp [piecesText, Piece.text]
  have hpreferred : preferred (notesOf [.note n]) = some n := by
    cases hkey : n.key <;> simp [preferred, notesOf, Piece.note?, hkey]
  rw [hpieces]
  exact annotationPath?_pieces (by simp) hpreferred

/-- The verbs of an endpoint with this annotation. -/
def verbs : List String :=
  n.verb.elim ((annotationVerb? n.text).map String.ofList).toList fun v => [v.word]

theorem mappingOf_text (notes : List (List Char)) :
    mappingOf notes n.text = ⟨n.verbs, some n.path.text⟩ := by
  have hverb : ∀ v : Verb, verbMappings.lookup (mappingName (some v)) = some v.word := by
    intro v
    cases v <;> decide
  have hrequest : verbMappings.lookup (mappingName none) = none := by decide
  rw [mappingOf, n.annotationName?_text, n.annotationPath?_text, verbs]
  cases hn : n.verb with
  | none =>
    simp only [hrequest]
    rfl
  | some v => simp only [hverb]; rfl

end Note

end Java

end CodeAtlas
