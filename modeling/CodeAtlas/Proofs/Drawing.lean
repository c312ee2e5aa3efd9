import CodeAtlas.Drawing
import CodeAtlas.Proofs.Walk
import Mathlib.Data.String.Basic

/-!
# What a drawing tells

The lines of a drawing tell the whole shape that was drawn (`lines_injective`): whatever names look
like, the character after the text in front of a line says whether the line is of this level or of
one below, and whether a name is the last of its directory. Of a tree of files and directories the
shape is what can be seen of it: every place that is not below a hidden name (`visible_eq_iff`). So
two directories have the same drawing exactly if the same can be seen of them
(`linesAt_eq_iff_visible`).
-/

open List

namespace CodeAtlas

open Node Workspace

namespace Drawing

/-! ## Lines and levels -/

/-- What `entryLines` puts before a name: another text for the last of a directory. -/
def branch (isLast : Bool) : String :=
  if isLast then "└── " else "├── "

/-- What `entryLines` puts before the lines below a name. -/
def trunk (isLast : Bool) : String :=
  if isLast then "    " else "│   "

theorem entryLines_cons (before name : String) (shape : Shape) (rest : List (String × Shape)) :
    entryLines before ((name, shape) :: rest) = (before ++ branch rest.isEmpty ++ name) ::
        (lines (before ++ trunk rest.isEmpty) shape ++ entryLines before rest) := by
  cases rest with
  | nil =>
    rw [entryLines, entryLines, append_nil]
    rfl
  | cons next rest =>
    rw [entryLines]
    rfl

mutual

/-- Every line of `lines` starts with the text that the lines stand after. -/
theorem prefix_of_mem_lines (before : String) (shape : Shape) {line : String}
    (h : line ∈ lines before shape) : before.toList <+: line.toList := by
  match shape with
  | .node es =>
    rw [lines] at h
    exact prefix_of_mem_entryLines before es h

theorem prefix_of_mem_entryLines (before : String) (es : List (String × Shape)) {line : String}
    (h : line ∈ entryLines before es) : before.toList <+: line.toList := by
  match es with
  | [] =>
    rw [entryLines] at h
    cases h
  | (name, shape) :: rest =>
    rw [entryLines_cons, mem_cons, mem_append] at h
    rcases h with rfl | h | h
    · rw [String.toList_append, String.toList_append, append_assoc]
      exact prefix_append _ _
    · have hlong := prefix_of_mem_lines (before ++ trunk rest.isEmpty) shape h
      rw [String.toList_append] at hlong
      exact (prefix_append _ _).trans hlong
    · exact prefix_of_mem_entryLines before rest h

end

/-- Whether a line is of a level below a name. -/
def isBelow (before : String) (isLast : Bool) (line : String) : Bool :=
  (before ++ trunk isLast).toList.isPrefixOf line.toList

variable {before : String} {isLast : Bool}

theorem isBelow_of_mem_lines {shape : Shape} {line : String}
    (h : line ∈ lines (before ++ trunk isLast) shape) : isBelow before isLast line :=
  isPrefixOf_iff_prefix.mpr (prefix_of_mem_lines _ shape h)

/-- The line of a name is not below another name: `branch` and `trunk` differ in their first
character. -/
theorem not_isBelow_branch (before name : String) (isLast isLast' : Bool) :
    isBelow before isLast (before ++ branch isLast' ++ name) = false := by
  rw [Bool.eq_false_iff]
  intro h
  have hprefix := isPrefixOf_iff_prefix.mp h
  simp only [String.toList_append, append_assoc, prefix_append_right_inj] at hprefix
  cases isLast <;> cases isLast' <;> simp [branch, trunk] at hprefix

/-- No line of `entryLines` begins as the lines below the name before do. -/
theorem takeWhile_isBelow_entryLines (before : String) (isLast : Bool)
    (es : List (String × Shape)) : (entryLines before es).takeWhile (isBelow before isLast) = [] := by
  cases es with
  | nil =>
    rw [entryLines]
    rfl
  | cons e rest =>
    obtain ⟨name, shape⟩ := e
    rw [entryLines_cons, takeWhile_cons, not_isBelow_branch]
    rfl

/-- The lines below a name are told apart from those of the names after it. -/
theorem append_entryLines_inj {shape₁ shape₂ : Shape} {rest₁ rest₂ : List (String × Shape)}
    (h : lines (before ++ trunk isLast) shape₁ ++ entryLines before rest₁ =
      lines (before ++ trunk isLast) shape₂ ++ entryLines before rest₂) :
    lines (before ++ trunk isLast) shape₁ = lines (before ++ trunk isLast) shape₂ ∧
      entryLines before rest₁ = entryLines before rest₂ := by
  have htake : ∀ (shape : Shape) (rest : List (String × Shape)),
      (lines (before ++ trunk isLast) shape ++ entryLines before rest).takeWhile
        (isBelow before isLast) = lines (before ++ trunk isLast) shape := by
    intro shape rest
    rw [takeWhile_append_of_pos fun line hline => isBelow_of_mem_lines hline,
      takeWhile_isBelow_entryLines, append_nil]
  have hbelow : lines (before ++ trunk isLast) shape₁ = lines (before ++ trunk isLast) shape₂ := by
    rw [← htake shape₁ rest₁, h, htake]
  rw [hbelow] at h
  exact ⟨hbelow, append_cancel_left h⟩

/-- The line of a name tells the name and whether it is the last. -/
theorem branch_append_inj {name₁ name₂ : String} {isLast₁ isLast₂ : Bool}
    (h : before ++ branch isLast₁ ++ name₁ = before ++ branch isLast₂ ++ name₂) :
    isLast₁ = isLast₂ ∧ name₁ = name₂ := by
  rw [String.append_assoc, String.append_assoc, String.append_right_inj] at h
  cases isLast₁ <;> cases isLast₂
  · exact ⟨rfl, (String.append_right_inj _).mp h⟩
  · exact absurd (congrArg String.toList h) (by simp [branch])
  · exact absurd (congrArg String.toList h) (by simp [branch])
  · exact ⟨rfl, (String.append_right_inj _).mp h⟩

mutual

/-- **`lines` tell the shape.** The induction is over both shapes at once; at every level the lines
below the first name are cut off by their `trunk`. -/
theorem lines_injective (before : String) (shape₁ shape₂ : Shape)
    (h : lines before shape₁ = lines before shape₂) : shape₁ = shape₂ := by
  match shape₁, shape₂ with
  | .node es₁, .node es₂ =>
    rw [lines, lines] at h
    rw [entryLines_injective before es₁ es₂ h]

theorem entryLines_injective (before : String) (es₁ es₂ : List (String × Shape))
    (h : entryLines before es₁ = entryLines before es₂) : es₁ = es₂ := by
  match es₁, es₂ with
  | [], [] => rfl
  | [], (name, shape) :: rest =>
    rw [entryLines_cons, entryLines] at h
    cases h
  | (name, shape) :: rest, [] =>
    rw [entryLines_cons, entryLines] at h
    cases h
  | (name₁, shape₁) :: rest₁, (name₂, shape₂) :: rest₂ =>
    rw [entryLines_cons, entryLines_cons, cons.injEq] at h
    obtain ⟨hline, hlines⟩ := h
    obtain ⟨hlast, rfl⟩ := branch_append_inj hline
    rw [hlast] at hlines
    obtain ⟨hbelow, hrest⟩ := append_entryLines_inj hlines
    rw [lines_injective _ shape₁ shape₂ hbelow, entryLines_injective before rest₁ rest₂ hrest]

end

/-- `inOrder` does not look at what stands below the names. -/
theorem inOrder_map {α β : Type} (f : α → β) (entries : List (String × α)) :
    inOrder (entries.map fun e => (e.1, f e.2)) = (inOrder entries).map fun e => (e.1, f e.2) := by
  unfold inOrder
  rw [map_mergeSort (s := fun a b : String × β => !decide (b.1 < a.1))]
  exact fun _ _ _ _ => rfl

theorem mem_inOrder {α : Type} {entries : List (String × α)} {e : String × α} :
    e ∈ inOrder entries ↔ e ∈ entries :=
  mem_mergeSort

/-- `inOrder` puts entries with different names in strict order. -/
theorem pairwise_inOrder {α : Type} {entries : List (String × α)}
    (h : (entries.map Prod.fst).Nodup) : (inOrder entries).Pairwise fun a b => a.1 < b.1 := by
  have hsorted : (inOrder entries).Pairwise fun a b => (!decide (b.1 < a.1)) := by
    refine pairwise_mergeSort (fun a b c hab hbc => ?_) (fun a b => ?_) entries
    · simp only [Bool.not_eq_true', decide_eq_false_iff_not, not_lt] at hab hbc ⊢
      exact hab.trans hbc
    · simp only [Bool.or_eq_true, Bool.not_eq_true', decide_eq_false_iff_not, not_lt]
      exact le_total a.1 b.1
  have hdistinct : (inOrder entries).Pairwise fun a b => a.1 ≠ b.1 := by
    have hperm := (mergeSort_perm entries fun a b => !(b.1 < a.1)).map Prod.fst
    exact pairwise_map.mp (hperm.nodup_iff.mpr h)
  refine (hsorted.and hdistinct).imp fun {a b} hab => ?_
  obtain ⟨hle, hne⟩ := hab
  simp only [Bool.not_eq_true', decide_eq_false_iff_not, not_lt] at hle
  exact lt_of_le_of_ne hle hne

end Drawing

namespace Node

/-! ## What can be seen of a tree -/

mutual

/-- What can be seen of a tree: names that are not hidden, with what can be seen below them, in
their order. A file looks like a directory in which nothing can be seen. -/
def visible : Node → Shape
  | .file _ => .leaf
  | .link _ => .leaf
  | .directory _ es => .node (Drawing.inOrder (visibleEntries es))

/-- The names of a directory that are not hidden, with what can be seen below them. -/
def visibleEntries : List (String × Node) → List (String × Shape)
  | [] => []
  | (name, n) :: rest =>
    if name ∈ Drawing.hiddenNames then visibleEntries rest
    else (name, visible n) :: visibleEntries rest

end

/-- A place that can be seen: something is there, and none of `hiddenNames` is on the way. -/
def Shows (t : Node) (l : Location) : Prop :=
  (t.at? l).isSome = true ∧ ∀ name ∈ l, name ∉ Drawing.hiddenNames

/-- A file, or a directory that can be listed and has each name once. -/
def isPlain : Node → Bool
  | .file _ => true
  | .link _ => false
  | .directory isOpen es => isOpen && (es.map Prod.fst).Nodup

/-- An entry whose name is not hidden. -/
def isShown (e : String × Node) : Bool :=
  e.1 ∉ Drawing.hiddenNames

def shownEntry (e : String × Node) : String × Shape :=
  (e.1, e.2.visible)

theorem visibleEntries_eq (es : List (String × Node)) :
    visibleEntries es = (es.filter isShown).map shownEntry := by
  induction es with
  | nil => rw [visibleEntries]; rfl
  | cons e rest ih =>
    obtain ⟨name, n⟩ := e
    rw [visibleEntries, ih]
    by_cases hname : name ∈ Drawing.hiddenNames
    · simp [hname, isShown]
    · simp [hname, isShown, shownEntry]

/-- The names that can be seen in a directory, with what can be seen below them, in their order. -/
def shown (t : Node) : List (String × Shape) :=
  (Drawing.inOrder (t.entries.filter isShown)).map shownEntry

theorem visible_eq (t : Node) : t.visible = .node t.shown := by
  cases t with
  | file _ | link _ => rw [visible]; simp [shown, entries, Drawing.inOrder, Shape.leaf]
  | directory isOpen es =>
    rw [visible, visibleEntries_eq]
    exact congrArg Shape.node (Drawing.inOrder_map visible (es.filter isShown))

variable {t t₁ t₂ : Node} {name : String}

theorem nodup_of_isPlain (h : t.isPlain) : (t.entries.map Prod.fst).Nodup := by
  cases t with
  | file _ | link _ => exact nodup_nil
  | directory isOpen es =>
    simp only [isPlain, Bool.and_eq_true, decide_eq_true_eq] at h
    exact h.2

/-- The names of `shown` are in strict order. -/
theorem pairwise_shown (h : t.isPlain) : t.shown.Pairwise fun a b => a.1 < b.1 := by
  have hnodup : ((t.entries.filter isShown).map Prod.fst).Nodup :=
    (nodup_of_isPlain h).sublist (List.filter_sublist.map _)
  exact pairwise_map.mpr (Drawing.pairwise_inOrder hnodup)

theorem mem_shown (h : t.isPlain) {shape : Shape} :
    (name, shape) ∈ t.shown ↔
      name ∉ Drawing.hiddenNames ∧ ∃ n, t.child? name = some n ∧ n.visible = shape := by
  unfold shown child?
  simp only [mem_map, Drawing.mem_inOrder, mem_filter, lookup_eq_some_iff_mem (nodup_of_isPlain h)]
  constructor
  · rintro ⟨⟨name', n⟩, ⟨hmem, hshown⟩, heq⟩
    cases heq
    exact ⟨by simpa [isShown] using hshown, n, hmem, rfl⟩
  · rintro ⟨hname, n, hmem, rfl⟩
    exact ⟨(name, n), ⟨hmem, by simpa [isShown] using hname⟩, rfl⟩

/-- As the names of `shown` are in strict order, which there are tells the list. -/
theorem shown_eq_iff (h₁ : t₁.isPlain) (h₂ : t₂.isPlain) :
    t₁.shown = t₂.shown ↔ ∀ e, e ∈ t₁.shown ↔ e ∈ t₂.shown := by
  constructor
  · intro h e
    rw [h]
  · intro h
    have hnodup : ∀ {t : Node}, t.isPlain → t.shown.Nodup := by
      intro t ht
      refine (pairwise_shown ht).imp ?_
      rintro a b hlt rfl
      exact lt_irrefl _ hlt
    refine List.Perm.eq_of_pairwise ?_ (pairwise_shown h₁) (pairwise_shown h₂)
      ((perm_ext_iff_of_nodup (hnodup h₁) (hnodup h₂)).mpr h)
    intro a b _ _ hab hba
    exact absurd hab (lt_asymm hba)

theorem shows_nil (t : Node) : t.Shows [] := by
  simp [Shows]

theorem shows_cons {rest : Location} : t.Shows (name :: rest) ↔
      name ∉ Drawing.hiddenNames ∧ ∃ n, t.child? name = some n ∧ n.Shows rest := by
  unfold Shows
  rw [at?_cons, forall_mem_cons]
  cases t.child? name with
  | none => simp
  | some n =>
    simp only [Option.bind_some, Option.some.injEq, exists_eq_left']
    tauto

/-- Induction over a tree through `child?`. -/
theorem childInduction {P : Node → Prop}
    (step : ∀ n, (∀ name m, n.child? name = some m → P m) → P n) (n : Node) : P n := by
  induction n using entriesInduction with
  | file _ | link _ => exact step _ fun name m hm => by cases hm
  | directory isOpen es ih =>
    refine step _ fun name m hm => ?_
    obtain ⟨l₁, l₂, hes, -⟩ := lookup_eq_some_iff.mp hm
    refine ih (name, m) ?_
    change es = _ at hes
    simp [hes]

/-- **What is `visible` of a tree is told by the places that it `Shows`.** The induction is over the
first tree: a name that can be seen in one tree can be seen in the other, and the same below it. -/
theorem visible_eq_iff (h₁ : t₁.all isPlain) (h₂ : t₂.all isPlain) :
    t₁.visible = t₂.visible ↔ ∀ l, t₁.Shows l ↔ t₂.Shows l := by
  induction t₁ using childInduction generalizing t₂ with
  | step t₁ ih =>
    have hplain₁ := ok_of_all h₁
    have hplain₂ := ok_of_all h₂
    have hchild : ∀ {name n₁ n₂}, t₁.child? name = some n₁ → t₂.child? name = some n₂ →
        (n₁.visible = n₂.visible ↔ ∀ l, n₁.Shows l ↔ n₂.Shows l) := fun hn₁ hn₂ =>
      ih _ _ hn₁ (all_of_child? h₁ hn₁) (all_of_child? h₂ hn₂)
    rw [visible_eq, visible_eq, Shape.node.injEq, shown_eq_iff hplain₁ hplain₂]
    constructor
    · intro h l
      cases l with
      | nil => exact iff_of_true (shows_nil t₁) (shows_nil t₂)
      | cons name rest =>
        rw [shows_cons, shows_cons]
        refine and_congr_right fun hname => ⟨?_, ?_⟩
        · rintro ⟨n₁, hn₁, hrest⟩
          have hmem := (h (name, n₁.visible)).mp ((mem_shown hplain₁).mpr ⟨hname, n₁, hn₁, rfl⟩)
          obtain ⟨-, n₂, hn₂, hsame⟩ := (mem_shown hplain₂).mp hmem
          exact ⟨n₂, hn₂, ((hchild hn₁ hn₂).mp hsame.symm rest).mp hrest⟩
        · rintro ⟨n₂, hn₂, hrest⟩
          have hmem := (h (name, n₂.visible)).mpr ((mem_shown hplain₂).mpr ⟨hname, n₂, hn₂, rfl⟩)
          obtain ⟨-, n₁, hn₁, hsame⟩ := (mem_shown hplain₁).mp hmem
          exact ⟨n₁, hn₁, ((hchild hn₁ hn₂).mp hsame rest).mpr hrest⟩
    · -- a name of both trees has the same places below it
      intro h
      have hbelow : ∀ {name n₁ n₂}, name ∉ Drawing.hiddenNames → t₁.child? name = some n₁ →
          t₂.child? name = some n₂ → n₁.visible = n₂.visible := by
        intro name n₁ n₂ hname hn₁ hn₂
        refine (hchild hn₁ hn₂).mpr fun l => ?_
        have hl := h (name :: l)
        simpa [shows_cons, hname, hn₁, hn₂] using hl
      rintro ⟨name, shape⟩
      rw [mem_shown hplain₁, mem_shown hplain₂]
      refine and_congr_right fun hname => ?_
      have hthere := h [name]
      simp only [shows_cons, hname, not_false_eq_true, true_and, shows_nil, and_true] at hthere
      constructor
      · rintro ⟨n₁, hn₁, rfl⟩
        obtain ⟨n₂, hn₂⟩ := hthere.mp ⟨n₁, hn₁⟩
        exact ⟨n₂, hn₂, (hbelow hname hn₁ hn₂).symm⟩
      · rintro ⟨n₂, hn₂, rfl⟩
        obtain ⟨n₁, hn₁⟩ := hthere.mpr ⟨n₂, hn₂⟩
        exact ⟨n₁, hn₁, hbelow hname hn₁ hn₂⟩

end Node

namespace Drawing

/-! ## The drawing of a directory -/

theorem sequence_ok {α : Type} (entries : List (String × α)) :
    sequence (entries.map fun e => (e.1, .ok e.2)) = .ok entries := by
  induction entries with
  | nil => rfl
  | cons e rest ih =>
    rw [map_cons, sequence, ih]
    rfl

/-- `shapeOf` a tree is what is `visible` of it, wherever the tree is. -/
theorem shapeOf_eq_visible {t : Node} (h : t.all isPlain)
    (follow : String → Location → String → Except FileError Shape) (path : String)
    (here : Location) : shapeOf follow path here t = .ok t.visible := by
  induction t using entriesInduction generalizing path here with
  | file bytes => rw [shapeOf, visible]
  | link target => cases h
  | directory isOpen es ih =>
    rw [Node.all, Bool.and_eq_true, Node.allEntries_eq_true] at h
    obtain ⟨hplain, hentries⟩ := h
    have hopen : isOpen := by
      simp only [isPlain, Bool.and_eq_true] at hplain
      exact hplain.1
    have hshapes : entryShapes follow path here es =
        (visibleEntries es).map fun e => (e.1, .ok e.2) := by
      clear hplain
      induction es with
      | nil => rw [entryShapes, visibleEntries]; rfl
      | cons e rest ihrest =>
        obtain ⟨name, n⟩ := e
        have hrest := ihrest (fun e he => ih e (mem_cons_of_mem _ he))
          fun e he => hentries e (mem_cons_of_mem _ he)
        have hn := ih (name, n) mem_cons_self (hentries _ mem_cons_self)
          (Path.join path name) (here ++ [name])
        rw [entryShapes, visibleEntries, hrest]
        by_cases hname : name ∈ hiddenNames
        · simp [hname]
        · simp [hname, hn]
    rw [hopen, shapeOf, hshapes, inOrder_map, sequence_ok, visible]
    rfl

/-- `linesAt` draws what is `visible` of a directory. -/
theorem linesAt_eq {w : Workspace} {path : String} {t : Node} (hfind : w.find? path = some t)
    (hdirectory : t.isDirectory) (hplain : t.all isPlain) (before : String) :
    linesAt w path before = .ok (lines before t.visible) := by
  unfold Workspace.find? at hfind
  unfold linesAt shapeAt openDirectory
  cases hplace : w.resolve true path with
  | error e =>
    rw [hplace] at hfind
    cases hfind
  | ok place =>
    rw [hplace] at hfind
    cases hfind
    have hshape := shapeOf_eq_visible hplain (shapeBehind w place.linksLeft) path place.location
    have hopen := ok_of_all hplain
    cases hnode : place.node with
    | file _ | link _ => rw [hnode] at hdirectory; cases hdirectory
    | directory isOpen es =>
      rw [hnode] at hopen hshape
      simp only [isPlain, Bool.and_eq_true] at hopen
      rw [hopen.1] at hnode hshape ⊢
      simp only [bind, Except.bind, hnode]
      rw [hshape]
      rfl

/-- **Two directories have the same drawing exactly if the same can be seen of them.** `linesAt`
draws both, after any text; the drawings are equal exactly if the `visible` shapes are, which is if
the same places can be seen. -/
theorem linesAt_eq_iff_visible {w₁ w₂ : Workspace} {path₁ path₂ : String} {t₁ t₂ : Node}
    (hfind₁ : w₁.find? path₁ = some t₁) (hdirectory₁ : t₁.isDirectory = true)
    (hplain₁ : t₁.all isPlain = true)
    (hfind₂ : w₂.find? path₂ = some t₂) (hdirectory₂ : t₂.isDirectory = true)
    (hplain₂ : t₂.all isPlain = true) (before : String) :
    (∃ drawing₁ drawing₂, linesAt w₁ path₁ before = .ok drawing₁ ∧
      linesAt w₂ path₂ before = .ok drawing₂ ∧
      (drawing₁ = drawing₂ ↔ t₁.visible = t₂.visible)) ∧
    (t₁.visible = t₂.visible ↔ ∀ l, t₁.Shows l ↔ t₂.Shows l) := by
  refine ⟨⟨_, _, linesAt_eq hfind₁ hdirectory₁ hplain₁ before,
    linesAt_eq hfind₂ hdirectory₂ hplain₂ before, ?_⟩, visible_eq_iff hplain₁ hplain₂⟩
  constructor
  · exact lines_injective before t₁.visible t₂.visible
  · intro h
    rw [h]

/-- A directory with hidden names, an empty-looking one among them, and a name that looks drawn. -/
def cluttered : Node :=
  .directory true
    [("z", .file [1]), (".git", .directory true [("config", .file [])]),
      ("a\n├── b", .directory true [("__pycache__", .directory true [("m", .file [])])])]

def cleared : Node :=
  .directory true [("a\n├── b", .file []), ("z", .directory true [])]

/-- `cluttered` and `cleared` have the same drawing. -/
theorem linesAt_eq_iff_visible_cluttered :
    ∃ drawing, linesAt ⟨"/", cluttered⟩ "." "> " = .ok drawing ∧
      linesAt ⟨"/", cleared⟩ "." "> " = .ok drawing := by
  have hpoint : Path.components "." = ["."] := by decide +kernel
  have hstart : ∀ root, start (home ⟨"/", root⟩) "." = [] := by
    intro root
    have hhome : Path.properComponents "/" = [] := by decide +kernel
    rw [home, hhome, start, ite_self]
  have hfind : ∀ es, find? ⟨"/", .directory true es⟩ "." = some (.directory true es) := by
    intro es
    have hplace : resolve ⟨"/", .directory true es⟩ true "." =
        .ok ⟨[], .directory true es, linkLimit⟩ := by
      refine resolve_eq_ok_iff.mpr ⟨by decide, by decide, by decide, ?_⟩
      rw [hstart, hpoint]
      rfl
    rw [Workspace.find?, hplace]
  have hvisible : cluttered.visible = cleared.visible := by
    have hlt : ("a\n├── b" : String) < "z" := by decide
    have hnot : ¬("z" : String) < "a\n├── b" := by decide
    simp [-String.lt_iff_ltb, cluttered, cleared, visible, visibleEntries, hiddenNames,
      inOrder, Shape.leaf, mergeSort, List.MergeSort.Internal.splitInTwo, hlt, hnot]
  have hplain : cluttered.all isPlain = true ∧ cleared.all isPlain = true := by
    decide +kernel
  obtain ⟨⟨drawing₁, drawing₂, h₁, h₂, hiff⟩, -⟩ :=
    linesAt_eq_iff_visible (hfind _) rfl hplain.1 (hfind _) rfl hplain.2 "> "
  exact ⟨drawing₁, h₁, by rw [hiff.mpr hvisible]; exact h₂⟩

end Drawing

end CodeAtlas
