import CodeAtlas.Proofs.BasePaths
import CodeAtlas.Proofs.TypeHeaders

/-!
# Source texts with several classes

The methods of classes are found with their names and parameters, and the class of each by its
position: it is the last that begins before the method (`enclosingClass?_append`). The path of a
class is another matter. A search for it begins at any `@RequestMapping`, so the annotations of the
methods of the class before count as well (`ClassText.basePath?`), and only if none of them is a
`@RequestMapping` the path is that of the class (`endpoints_of_classes`).
-/

open List

namespace CodeAtlas

open Pattern Outline Text Cursor

namespace Java

variable {bound : Nat} {c : Cursor} {rest : List Char} {baseAt : Nat → List Char}
variable {before : List (List Char × Nat)} {earlier : List Note}

/-! ## Source texts -/

/-- A method of a class and what follows it. Neither its type nor its parameters name a class. -/
structure Member where
  handler : Handler
  after : Prose
  type_end : ¬ "class".toList <:+ handler.type
  parameters_plain : ∀ c ∈ handler.parameters, notAmong "\"@" c = true
  parameters_clear : Clear (handler.parameters ++ [')'])

def Member.text (m : Member) : List Char :=
  m.handler.text ++ m.after.text

/-- A class with annotated methods. The annotation before it gives its base path. -/
structure ClassText where
  base : Option Note
  gap : List Char
  modifiers : List (Modifier typeModifiers)
  name : List Char
  heading : List Char
  lead : Prose
  members : List Member
  close : Prose
  base_request : ∀ n ∈ base, n.verb = none
  gap_blank : ∀ c ∈ gap, isBlank c = true
  name_ne_nil : name ≠ []
  name_word : ∀ c ∈ name, isWord c = true
  heading_plain : ∀ c ∈ heading, isHeadChar c = true
  heading_begins : heading.head?.any isWord = false
  heading_clear : Clear (heading ++ ['\x7b'])

def ClassText.text (k : ClassText) : List Char :=
  k.base.elim [] Note.text ++ (k.gap ++ modifiersText k.modifiers) ++ spaced "class" ++ k.name ++
    (k.heading ++ ['\x7b']) ++ k.lead.text ++ k.members.flatMap Member.text ++ k.close.text

/-- A text with several classes, none of them within another. -/
structure SourceText where
  preamble : Prose
  classes : List ClassText
  distinct : (classes.map ClassText.name).Nodup

def classesText (ks : List ClassText) : List Char :=
  ks.flatMap ClassText.text

def SourceText.text (src : SourceText) : List Char :=
  src.preamble.text ++ classesText src.classes

/-! ## Their pieces -/

theorem notAmong_of_isHeadChar {c : Char} (h : isHeadChar c) : notAmong "\"@" c := by
  have hother : ∀ d ∈ "\"@".toList, isHeadChar d = false := by decide
  rw [notAmong, Bool.not_eq_true', ← Bool.not_eq_true, contains_iff_mem]
  intro hmem
  rw [hother c hmem] at h
  cases h

theorem clear_modifierText {words : List String} (hwords : AreWords words)
    (hend : ∀ w ∈ words, ¬ "class".toList <:+ w.toList) (m : Modifier words) : Clear m.text :=
  .of_word (fun c hc => isBlank_of_isAsciiWord ((hwords.word _ m.mem).2 c hc))
    (hend _ m.mem) (by decide)

namespace Member

variable (m : Member)

theorem clear_declared :
    Clear (m.handler.head ++ '(' :: (m.handler.parameters ++ ')' :: m.after.text)) := by
  have hmodifier : ∀ {words : List String} (o : Option (Modifier words)), AreWords words →
      (∀ w ∈ words, ¬ "class".toList <:+ w.toList) → Clear (modifierText o) := by
    intro words o hwords hend
    cases o with
    | none => exact .nil
    | some o => exact clear_modifierText hwords hend o
  have hlead : Clear (m.handler.gap ++ (modifierText m.handler.access ++
      modifierText m.handler.further)) :=
    (Clear.of_blank m.handler.gap_blank).append ((hmodifier _ Handler.areWords_accessWords
      (by decide)).append (hmodifier _ Handler.areWords_furtherWords (by decide)))
  have htype : Clear (m.handler.type ++ [' ']) :=
    .of_word (fun c hc => isBlank_of_isTypeChar (m.handler.type_plain c hc)) m.type_end (by decide)
  have hname : Clear (m.handler.name ++ ['(']) :=
    .of_solid (fun c hc => isBlank_of_isWord (m.handler.name_word c hc)) (by decide)
      (by decide)
  have hall := (hlead.append (htype.append hname)).append
    (m.parameters_clear.append m.after.clear)
  simpa [Handler.head] using hall

theorem plain_declared : ∀ c ∈ m.handler.head ++ '(' :: (m.handler.parameters ++
    ')' :: m.after.text), notAmong "\"@" c := by
  intro c hc
  simp only [mem_append, mem_cons] at hc
  rcases hc with hc | rfl | hc | rfl | hc
  · exact notAmong_of_isHeadChar (m.handler.isHeadChar_of_mem hc)
  · decide
  · exact m.parameters_plain c hc
  · decide
  · exact m.after.plain c hc

/-- A method as an annotation and the rest. -/
def pieces : List Piece :=
  [.note m.handler.note, .prose ⟨_, m.plain_declared, m.clear_declared⟩]

theorem piecesText_pieces : piecesText m.pieces = m.text := by
  simp [piecesText, pieces, Piece.text, text, Handler.text]

end Member

theorem areWords_typeModifiers_end : ∀ w ∈ typeModifiers, ¬ "class".toList <:+ w.toList := by
  decide

namespace ClassText

variable (k : ClassText)

theorem isHeadChar_of_mem_modifiersText {ms : List (Modifier typeModifiers)} {c : Char}
    (hc : c ∈ modifiersText ms) : isHeadChar c := by
  obtain ⟨m, -, hc⟩ := mem_flatMap.mp hc
  exact Handler.isHeadChar_of_mem_modifierText areWords_typeModifiers (m := some m) hc

theorem isHeadChar_of_mem_front {c : Char} (hc : c ∈ k.gap ++ modifiersText k.modifiers) :
    isHeadChar c := by
  rcases mem_append.mp hc with hc | hc
  · simp [isHeadChar, k.gap_blank c hc]
  · exact isHeadChar_of_mem_modifiersText hc

/-- What stands before the keyword, after the annotation. -/
def front : Prose where
  text := k.gap ++ modifiersText k.modifiers
  plain := fun _ hc => notAmong_of_isHeadChar (k.isHeadChar_of_mem_front hc)
  clear := (Clear.of_blank k.gap_blank).append (.flatMap fun m _ =>
    clear_modifierText areWords_typeModifiers areWords_typeModifiers_end m)

/-- What stands between the name and the body. -/
def opening : Prose where
  text := k.heading ++ ['\x7b']
  plain := by
    intro c hc
    rcases mem_append.mp hc with hc | hc
    · exact notAmong_of_isHeadChar (k.heading_plain c hc)
    · rw [mem_singleton.mp hc]
      decide
  clear := k.heading_clear

def header : List Piece :=
  (k.base.map Piece.note).toList ++ [.prose k.front]

def body : List Piece :=
  [.prose k.opening, .prose k.lead] ++ k.members.flatMap Member.pieces ++ [.prose k.close]

theorem piecesText_header :
    piecesText k.header = k.base.elim [] Note.text ++ (k.gap ++ modifiersText k.modifiers) := by
  cases hbase : k.base <;> simp [piecesText, header, front, hbase, Piece.text]

theorem piecesText_body : piecesText k.body =
      (k.heading ++ ['\x7b']) ++ k.lead.text ++ k.members.flatMap Member.text ++ k.close.text := by
  have hmembers : (k.members.flatMap Member.pieces).flatMap Piece.text =
      k.members.flatMap Member.text := by
    rw [flatMap_assoc]
    exact flatMap_congr fun m _ => m.piecesText_pieces
  simp [piecesText, body, opening, Piece.text, hmembers]

theorem text_append (rest : List Char) : k.text ++ rest =
      piecesText k.header ++ (spaced "class" ++ (k.name ++ (piecesText k.body ++ rest))) := by
  rw [piecesText_header, piecesText_body, text]
  simp only [append_assoc]

theorem body_begins (rest : List Char) : (piecesText k.body ++ rest).head?.any isWord = false := by
  rw [piecesText_body]
  have hbegins := k.heading_begins
  cases hheading : k.heading with
  | nil => rfl
  | cons d heading =>
    rw [hheading] at hbegins
    exact hbegins

end ClassText

theorem classesText_cons (k : ClassText) (ks : List ClassText) :
    classesText (k :: ks) = piecesText k.header ++ (spaced "class" ++ (k.name ++
      (piecesText k.body ++ classesText ks))) := by
  rw [classesText, flatMap_cons, k.text_append]
  rfl

/-! ## Where the classes are -/

/-- The classes of a text with the positions of their keywords. -/
def positions (offset : Nat) : List ClassText → List (List Char × Nat)
  | [] => []
  | k :: ks =>
    (k.name, offset + (piecesText k.header).length) :: positions (offset + k.text.length) ks

theorem classPositions_classes (ks : List ClassText) {gap : List Char} (hgap : Clear gap)
    (hrest : c.rest = gap ++ classesText ks) :
    (searchFrom classPattern bound c).map (fun m => (m.group 1, m.start)) =
      positions (c.position + gap.length) ks := by
  induction ks generalizing c gap with
  | nil =>
    have hend : c.rest = gap := by
      rw [hrest]
      exact append_nil gap
    have hnone : searchFrom classPattern bound c = [] :=
      (hgap.passes_classTail 1 []).searchFrom_eq_nil ⟨by decide, rfl⟩ hend
    rw [hnone]
    rfl
  | cons k ks ih =>
    rw [classesText_cons, ← append_assoc] at hrest
    obtain ⟨m, hname, hstart, hsearch⟩ := searchFrom_classPattern bound
      (hgap.append (clear_pieces k.header)) k.name_ne_nil k.name_word
      (k.body_begins (classesText ks)) hrest
    rw [hsearch, map_cons, hname, hstart, ih (clear_pieces k.body) rfl, positions]
    have hlength : k.text.length = (piecesText k.header).length +
        ((spaced "class").length + (k.name.length + (piecesText k.body).length)) := by
      have htext := congrArg length (k.text_append [])
      simpa using htext
    simp only [Cursor.pass, length_append, hlength]
    simp only [Nat.add_assoc]

variable {name : List Char} {start : Nat} {ks : List ClassText}
  {bases passed : List (List Char × List Char)}

theorem enclosingClass?_append {after : List (List Char × Nat)} {position : Nat}
    (hbefore : ∀ k ∈ before, k.2 < position) (hstart : start < position)
    (hafter : ∀ k ∈ after, position ≤ k.2) :
    enclosingClass? (before ++ (name, start) :: after) position = some name := by
  have hfirst : (before ++ (name, start) :: after).takeWhile (fun k => decide (k.2 < position)) =
      before ++ [(name, start)] := by
    rw [takeWhile_append_of_pos fun k hk => decide_eq_true (hbefore k hk),
      takeWhile_cons_of_pos (by simpa using hstart)]
    cases after with
    | nil => rfl
    | cons k after =>
      have hk := hafter k mem_cons_self
      rw [takeWhile_cons_of_neg (by simpa using hk)]
  rw [enclosingClass?, hfirst]
  simp

theorem le_of_mem_positions {offset : Nat} {k : List Char × Nat} (hk : k ∈ positions offset ks) :
    offset ≤ k.2 := by
  induction ks generalizing offset with
  | nil => cases hk
  | cons k' ks ih =>
    rcases mem_cons.mp hk with rfl | hk
    · exact Nat.le_add_right _ _
    · exact Nat.le_trans (Nat.le_add_right _ _) (ih hk)

/-! ## Their base paths -/

/-- The annotations of the methods of a class. -/
def ClassText.notes (k : ClassText) : List Note :=
  k.members.map fun m => m.handler.note

theorem ClassText.notesOf_header (k : ClassText) : notesOf k.header = k.base.toList := by
  cases hbase : k.base <;> simp [notesOf, header, hbase, Piece.note?]

theorem ClassText.notesOf_body (k : ClassText) : notesOf k.body = k.notes := by
  have hmembers : (k.members.flatMap Member.pieces).filterMap Piece.note? = k.notes := by
    rw [filterMap_flatMap, notes, map_eq_flatMap]
    rfl
  rw [notesOf, body, filterMap_append, filterMap_append, hmembers]
  exact append_nil _

/-- The path that counts for a class if the methods of the class before have some annotations. -/
def ClassText.basePath? (k : ClassText) (earlier : List Note) : Option (List Char) :=
  requestPath? (earlier ++ k.base.toList)

/-- The classes that have a base path, in order. -/
def basesOf (earlier : List Note) : List ClassText → List (List Char × List Char)
  | [] => []
  | k :: ks => (k.basePath? earlier).toList.map (k.name, ·) ++ basesOf k.notes ks

theorem basesFrom_classes (ks : List ClassText) {pending : List Piece}
    (hrest : c.rest = piecesText pending ++ classesText ks) :
    basesFrom bound c = basesOf (notesOf pending) ks := by
  induction ks generalizing c pending with
  | nil =>
    have hend : c.rest = piecesText pending := by
      rw [hrest]
      exact append_nil _
    rw [basesFrom, (passes_basePattern_clear (clear_pieces pending)).searchFrom_eq_nil
      ⟨by decide, rfl⟩ hend]
    rfl
  | cons k ks ih =>
    have hrest : c.rest = piecesText (pending ++ k.header) ++ (spaced "class" ++ (k.name ++
        (piecesText k.body ++ classesText ks))) := by
      rw [hrest, classesText_cons]
      simp [piecesText]
    rw [basesFrom_pieces (pending ++ k.header) k.name_ne_nil k.name_word
      (k.body_begins (classesText ks)) hrest, ih rfl, k.notesOf_body]
    have hnotes : notesOf (pending ++ k.header) = notesOf pending ++ k.base.toList := by
      rw [← k.notesOf_header]
      exact filterMap_append
    rw [hnotes]
    rfl

theorem mem_names_of_mem_basesOf {b : List Char × List Char} (hb : b ∈ basesOf earlier ks) :
    b.1 ∈ ks.map ClassText.name := by
  induction ks generalizing earlier with
  | nil => cases hb
  | cons k ks ih =>
    rcases mem_append.mp hb with hb | hb
    · obtain ⟨path, -, rfl⟩ := mem_map.mp hb
      exact mem_cons_self
    · exact mem_cons_of_mem _ (ih hb)

theorem lookup_eq_none (h : ∀ b ∈ bases, b.1 ≠ name) : bases.lookup name = none := by
  rw [lookup_eq_none_iff]
  intro b hb
  simpa using fun heq : name = b.1 => h b hb heq.symm

/-- With distinct names each class is looked up with its own path. -/
theorem lookup_bases {before after : List (List Char × List Char)} (path : Option (List Char))
    (hbefore : ∀ b ∈ before, b.1 ≠ name) (hafter : ∀ b ∈ after, b.1 ≠ name) :
    (before ++ (path.toList.map (name, ·) ++ after)).reverse.lookup name = path := by
  have hbefore' : before.reverse.lookup name = none :=
    lookup_eq_none fun b hb => hbefore b (mem_reverse.mp hb)
  have hafter' : after.reverse.lookup name = none :=
    lookup_eq_none fun b hb => hafter b (mem_reverse.mp hb)
  simp only [reverse_append, lookup_append, hbefore', hafter']
  cases path <;> simp

/-! ## Their endpoints -/

theorem Prose.at_not_mem (p : Prose) : '@' ∉ p.text :=
  fun hmem => (p.of_mem hmem).2 rfl

/-- `endpointsFrom` finds the methods of a class one after another. -/
theorem endpointsFrom_members (ms : List Member) {base : List Char}
    (hbase : ∀ q, c.position ≤ q → q < c.position + (ms.flatMap Member.text).length →
      baseAt q = base) (hrest : c.rest = ms.flatMap Member.text ++ rest) :
    endpointsFrom baseAt bound c = ms.map (fun m => m.handler.endpoint base) ++
      endpointsFrom baseAt bound (c.pass (ms.flatMap Member.text) rest) := by
  induction ms generalizing c with
  | nil =>
    have hrest : c.rest = rest := hrest
    rw [← hrest]
    rfl
  | cons m ms ih =>
    simp only [flatMap_cons, Member.text, append_assoc] at hrest
    have hlength : ((m :: ms).flatMap Member.text).length =
        m.text.length + (ms.flatMap Member.text).length := by
      rw [flatMap_cons, length_append]
    have hpos : 0 < m.text.length := by
      simp [Member.text, Handler.text, Note.text]
    rw [hlength] at hbase
    let after := c.pass m.text (ms.flatMap Member.text ++ rest)
    have hafter : endpointsFrom baseAt bound c =
        m.handler.endpoint (baseAt c.position) :: endpointsFrom baseAt bound after := by
      rw [endpointsFrom_handler m.handler hrest, endpointsFrom_gap m.after.at_not_mem rfl,
        pass_pass]
      rfl
    have hposition : after.position = c.position + m.text.length := rfl
    rw [hafter, ih (fun q hle hlt => hbase q (by omega) (by omega)) rfl,
      hbase c.position (Nat.le_refl _) (by omega), pass_pass]
    rfl

namespace ClassText

variable (k : ClassText)

/-- What stands between the annotation of a class and its body. -/
def head : List Char :=
  k.gap ++ modifiersText k.modifiers ++ spaced "class" ++ k.name ++ k.heading

theorem isHeadChar_of_mem_head {c : Char} (hc : c ∈ k.head) : isHeadChar c := by
  have hclass : ∀ d ∈ spaced "class", isHeadChar d := by decide
  simp only [head, append_assoc] at hc
  rw [← append_assoc] at hc
  rcases mem_append.mp hc with hc | hc
  · exact k.isHeadChar_of_mem_front hc
  rcases mem_append.mp hc with hc | hc
  · exact hclass c hc
  rcases mem_append.mp hc with hc | hc
  · simp [isHeadChar, isTypeChar_of_isWord (k.name_word c hc)]
  · exact k.heading_plain c hc

theorem text_append_head (rest : List Char) :
    k.text ++ rest = k.base.elim [] Note.text ++ (k.head ++ '\x7b' :: (k.lead.text ++
      (k.members.flatMap Member.text ++ (k.close.text ++ rest)))) := by
  simp [text, head]

/-- For `endpointsFrom` the annotation of a class makes no endpoint. -/
theorem endpointsFrom_base {r : List Char}
    (hrest : c.rest = k.base.elim [] Note.text ++ (k.head ++ '\x7b' :: r)) :
    endpointsFrom baseAt bound c =
      endpointsFrom baseAt bound (c.pass (k.base.elim [] Note.text) (k.head ++ '\x7b' :: r)) := by
  cases hbase : k.base with
  | none =>
    have hnone : c.rest = [] ++ (k.head ++ '\x7b' :: r) := by
      rw [hrest, hbase]
      rfl
    exact endpointsFrom_gap (by simp) hnone
  | some n =>
    rw [hbase] at hrest
    exact endpointsFrom_note n (fun _ => k.isHeadChar_of_mem_head) (by decide) (by decide)
      (by decide) hrest

/-- **`endpointsFrom` a class** are those of its methods. -/
theorem endpointsFrom_text {base : List Char}
    (hbase : ∀ q, c.position + (piecesText k.header).length < q →
      q < c.position + k.text.length → baseAt q = base) (hrest : c.rest = k.text ++ rest) :
    endpointsFrom baseAt bound c = k.members.map (fun m => m.handler.endpoint base) ++
      endpointsFrom baseAt bound (c.pass k.text rest) := by
  rw [k.text_append_head] at hrest
  let front := k.base.elim [] Note.text ++ (k.head ++ '\x7b' :: k.lead.text)
  let inside := c.pass front (k.members.flatMap Member.text ++ (k.close.text ++ rest))
  have hfront : endpointsFrom baseAt bound c = endpointsFrom baseAt bound inside := by
    have hplain : '@' ∉ k.head ++ '\x7b' :: k.lead.text := by
      intro hmem
      rcases mem_append.mp hmem with hmem | hmem
      · have hhead := k.isHeadChar_of_mem_head hmem
        revert hhead
        decide
      · rcases mem_cons.mp hmem with hmem | hmem
        · cases hmem
        · exact k.lead.at_not_mem hmem
    have hcut : k.head ++ '\x7b' :: (k.lead.text ++ (k.members.flatMap Member.text ++
        (k.close.text ++ rest))) = (k.head ++ '\x7b' :: k.lead.text) ++
          (k.members.flatMap Member.text ++ (k.close.text ++ rest)) := by simp
    rw [k.endpointsFrom_base hrest, endpointsFrom_gap hplain hcut, pass_pass]
  have htext : k.text = front ++ (k.members.flatMap Member.text ++ k.close.text) := by
    have happend := k.text_append_head []
    simpa [front] using happend
  have hheader : (piecesText k.header).length < front.length := by
    rw [piecesText_header]
    simp [front, head, spaced]
  have hlength := congrArg length htext
  simp only [length_append] at hlength
  have hinside : inside.position = c.position + front.length := rfl
  have hmembers : ∀ q, inside.position ≤ q →
      q < inside.position + (k.members.flatMap Member.text).length → baseAt q = base :=
    fun q hle hlt => hbase q (by omega) (by omega)
  rw [hfront, endpointsFrom_members k.members hmembers rfl,
    endpointsFrom_gap k.close.at_not_mem rfl, pass_pass, pass_pass, htext]

end ClassText

/-- The endpoints of classes, each with the path that counts for it. -/
def reported (earlier : List Note) : List ClassText → List Endpoint
  | [] => []
  | k :: ks => k.members.map (fun m => m.handler.endpoint ((k.basePath? earlier).getD [])) ++
      reported k.notes ks

/-- `basePathAt` a place in a class is the path found for it: it is the last class that begins
before, and no other has its name. -/
theorem basePathAt_class (k : ClassText) {q : Nat} (hbefore : ∀ a ∈ before, a.2 < start)
    (hpassed : ∀ b ∈ passed, b.1 ≠ k.name) (hnew : k.name ∉ ks.map ClassText.name)
    (hstart : start + (piecesText k.header).length < q) (hend : q < start + k.text.length) :
    basePathAt (passed ++ basesOf earlier (k :: ks)).reverse (before ++ positions start (k :: ks))
      q = (k.basePath? earlier).getD [] := by
  have henclosing :
      enclosingClass? (before ++ positions start (k :: ks)) q = some k.name := by
    refine enclosingClass?_append (fun a ha => ?_) hstart fun a ha => ?_
    · have := hbefore a ha
      omega
    · have := le_of_mem_positions ha
      omega
  have hlookup :
      (passed ++ basesOf earlier (k :: ks)).reverse.lookup k.name = k.basePath? earlier :=
    lookup_bases _ hpassed fun b hb heq => hnew (heq ▸ mem_names_of_mem_basesOf hb)
  rw [basePathAt, henclosing, Option.bind_some, hlookup]

/-- **`endpointsFrom` several classes.** The classes passed have their positions and base paths
before those of the classes to come. -/
theorem endpointsFrom_classes (ks : List ClassText) {classes : List (List Char × Nat)}
    (hclasses : classes = before ++ positions c.position ks)
    (hbefore : ∀ k ∈ before, k.2 < c.position) (hbases : bases = passed ++ basesOf earlier ks)
    (hpassed : ∀ b ∈ passed, b.1 ∉ ks.map ClassText.name)
    (hdistinct : (ks.map ClassText.name).Nodup) (hrest : c.rest = classesText ks) :
    endpointsFrom (basePathAt bases.reverse classes) bound c = reported earlier ks := by
  -- the lists of positions and of paths stay the same; what grows is the part of them passed
  induction ks generalizing c earlier before passed with
  | nil => exact endpointsFrom_end hrest
  | cons k ks ih =>
    obtain ⟨hnew, hdistinct⟩ := nodup_cons.mp hdistinct
    have hrest : c.rest = k.text ++ classesText ks := hrest
    have hheader : (piecesText k.header).length < k.text.length := by
      have htext := congrArg length (k.text_append [])
      simp [spaced] at htext
      omega
    have hbase : ∀ q, c.position + (piecesText k.header).length < q →
        q < c.position + k.text.length →
          basePathAt bases.reverse classes q = (k.basePath? earlier).getD [] := by
      intro q hstart hend
      rw [hbases, hclasses]
      refine basePathAt_class k hbefore (fun b hb heq => hpassed b hb ?_) hnew hstart hend
      exact heq ▸ mem_cons_self
    rw [k.endpointsFrom_text hbase hrest, reported]
    congr 1
    have hclasses' : classes =
        (before ++ [(k.name, c.position + (piecesText k.header).length)]) ++
          positions (c.pass k.text (classesText ks)).position ks := by
      rw [hclasses, positions, append_assoc]
      rfl
    have hbases' : bases = (passed ++ (k.basePath? earlier).toList.map (k.name, ·)) ++
        basesOf k.notes ks := by
      rw [hbases, basesOf, append_assoc]
    refine ih hclasses' ?_ hbases' ?_ hdistinct rfl
    · intro a ha
      have hposition :
          (c.pass k.text (classesText ks)).position = c.position + k.text.length := rfl
      rcases mem_append.mp ha with ha | ha
      · have := hbefore a ha
        omega
      · rw [mem_singleton.mp ha]
        omega
    · intro b hb
      rcases mem_append.mp hb with hb | hb
      · exact fun hmem => hpassed b hb (mem_cons_of_mem _ hmem)
      · obtain ⟨path, -, rfl⟩ := mem_map.mp hb
        exact hnew

/-- **The `endpoints` of a source text** are as `reported`. -/
theorem endpoints_eq_reported (src : SourceText) :
    endpoints src.text = reported [] src.classes := by
  have hpieces : piecesText [.prose src.preamble] = src.preamble.text := by
    simp [piecesText, Piece.text]
  have hclasses : classPositions src.text = positions (0 + src.preamble.text.length) src.classes :=
    classPositions_classes (c := .start src.text) src.classes src.preamble.clear rfl
  have hbases : basePaths src.text = (basesOf [] src.classes).reverse := by
    have hrest : (start src.text).rest = piecesText [.prose src.preamble] ++
        classesText src.classes := by
      rw [hpieces]
      rfl
    rw [basePaths_eq_basesFrom, basesFrom_classes src.classes hrest]
    rfl
  rw [endpoints_eq_endpointsFrom, endpointsFrom_gap src.preamble.at_not_mem rfl, hclasses, hbases]
  have hstart : positions (0 + src.preamble.text.length) src.classes =
      [] ++ positions (0 + src.preamble.text.length) src.classes := rfl
  have hfirst : basesOf [] src.classes = [] ++ basesOf [] src.classes := rfl
  exact endpointsFrom_classes src.classes hstart (by simp) hfirst (by simp) src.distinct rfl

/-! ## Classes written line by line -/

def Prose.line : Prose :=
  ⟨['\n'], by decide, ⟨by decide, by decide⟩⟩

/-- The body of a method, with nothing in it. -/
def Prose.emptyBody : Prose :=
  ⟨" \x7b\x7d\n".toList, by decide, ⟨by decide, by decide⟩⟩

theorem isBlank_newline : ∀ c ∈ ['\n'], isBlank c := by
  decide

/-- A public class with its annotation on the line before. -/
def ClassText.lines (base : Option PathText) (name : Identifier) (members : List Member)
    (close : Prose) : ClassText where
  base := base.map (.sole none)
  gap := ['\n']
  modifiers := [publicModifier]
  name := name.text
  heading := [' ']
  lead := .line
  members := members
  close := close
  base_request := by simp [Note.sole]
  gap_blank := isBlank_newline
  name_ne_nil := name.ne_nil
  name_word := fun c hc => isWord_of_isAsciiWord (name.word c hc)
  heading_plain := by decide
  heading_begins := rfl
  heading_clear := ⟨by decide, by decide⟩

/-- The method `public T n()` with an annotation on the line before. -/
def Member.plain (n : Note) : Member where
  handler := { Handler.plain with note := n, gap := ['\n'], gap_blank := isBlank_newline }
  after := .emptyBody
  type_end := show ¬ "class".toList <:+ "T".toList by decide
  parameters_plain := Prose.empty.plain
  parameters_clear := show Clear [')'] from ⟨by decide, by decide⟩

def ClassText.plain (base : Option PathText) (name : Identifier) (n : Note) : ClassText :=
  .lines base name [.plain n] ⟨"\x7d\n".toList, by decide, ⟨by decide, by decide⟩⟩

/-- Two classes, the first with a method for one verb or for requests of any kind, the second with a
base path. -/
def SourceText.plain (verb : Option Verb) : SourceText where
  preamble := .empty
  classes :=
    [.plain none ⟨['A'], by decide, by decide⟩ (.sole verb ⟨"/x".toList, by decide, by decide⟩),
      .plain (some ⟨"/b".toList, by decide, by decide⟩) ⟨['B'], by decide, by decide⟩
        (.sole (some .get) ⟨"/y".toList, by decide, by decide⟩)]
  distinct := show [['A'], ['B']].Nodup by decide

/-! ## Base paths of the classes' own -/

/-- The path that the annotation of a class gives. -/
def ClassText.ownPath (k : ClassText) : List Char :=
  k.base.elim [] fun n => n.path.text

/-- The endpoints of classes, each with the path of its own annotation. -/
def declared (ks : List ClassText) : List Endpoint :=
  ks.flatMap fun k => k.members.map fun m => m.handler.endpoint k.ownPath

/-- For `basePath?` annotations for one verb do not count. -/
theorem ClassText.basePath?_of_verbs (k : ClassText) (h : ∀ n ∈ earlier, n.verb.isSome) :
    (k.basePath? earlier).getD [] = k.ownPath := by
  rw [basePath?, requestPath?, dropWhile_append_of_pos h, ownPath]
  cases hbase : k.base with
  | none => rfl
  | some n =>
    have hverb := k.base_request n hbase
    have hpreferred : preferred [n] = some n := by
      cases hkey : n.key <;> simp [preferred, hkey]
    simp [hverb, hpreferred]

theorem reported_eq_declared (ks : List ClassText) (hearlier : ∀ n ∈ earlier, n.verb.isSome)
    (h : ∀ k ∈ ks.dropLast, ∀ n ∈ k.notes, n.verb.isSome) : reported earlier ks = declared ks := by
  induction ks generalizing earlier with
  | nil => rfl
  | cons k ks ih =>
    rw [reported, k.basePath?_of_verbs hearlier, declared, flatMap_cons]
    congr 1
    cases ks with
    | nil => rfl
    | cons k' ks =>
      rw [dropLast_cons_cons] at h
      exact ih (h k mem_cons_self) fun k'' hk => h k'' (mem_cons_of_mem _ hk)

/-- **Base paths of several classes.** The methods of a class are reported with the preferred path
among the annotations from the first `@RequestMapping` on that follows the class before, be it one
of a method there. If no method but those of the last class has a `@RequestMapping`, this is the
path of the class. -/
theorem endpoints_of_classes (src : SourceText) :
    endpoints src.text = reported [] src.classes ∧
      ((∀ k ∈ src.classes.dropLast, ∀ n ∈ k.notes, n.verb.isSome = true) →
        endpoints src.text = declared src.classes) := by
  refine ⟨endpoints_eq_reported src, fun h => ?_⟩
  rw [endpoints_eq_reported, reported_eq_declared src.classes (by simp) h]

theorem endpoints_of_classes_plain :
    (endpoints (SourceText.plain (some .put)).text).map Endpoint.path = ["/x", "/b/y"] := by
  have h := (endpoints_of_classes (.plain (some .put))).2 (by decide)
  rw [h]
  decide

/-- A `@RequestMapping` of a method counts for the class after it, in place of its own. -/
theorem endpoints_ne_declared :
    (endpoints (SourceText.plain none).text).map Endpoint.path = ["/x", "/x/y"] ∧
      endpoints (SourceText.plain none).text ≠ declared (SourceText.plain none).classes := by
  rw [endpoints_eq_reported]
  decide

end Java

end CodeAtlas
