import CodeAtlas.Proofs.Act
import CodeAtlas.Proofs.Drawing
import CodeAtlas.Proofs.Lines

/-!
# Drawings line by line

A drawing is put together with line feeds and cut again wherever a line ends. The lines are found
again exactly if none of them holds a character that ends one (`lines_intercalate_iff`), and in the
lines of a drawing such a character can only come from a name (`clean_lines`).
-/

open List

namespace CodeAtlas

namespace Text

/-- The characters that end a line. -/
def lineEnds : List Char :=
  ['\n', '\r', '\x0b', '\x0c', '\x1c', '\x1d', '\x1e', '\x85', '\u2028', '\u2029']

theorem endsLine_iff {c : Char} : endsLine c ↔ c ∈ lineEnds := by
  simp only [endsLine, lineEnds, Bool.or_eq_true, Bool.and_eq_true, decide_eq_true_eq, beq_iff_eq,
    mem_cons, not_mem_nil, or_false, ← Char.toNat_inj]
  simp
  omega

/-- No character of a text ends a line. -/
def Clean (text : List Char) : Prop :=
  ∀ c ∈ text, c ∉ lineEnds

theorem clean_append {a b : List Char} : Clean (a ++ b) ↔ Clean a ∧ Clean b :=
  forall_mem_append

theorem Clean.inside {text : List Char} (h : Clean text) : ∀ c ∈ text, endsLine c = false :=
  fun c hc => Bool.eq_false_iff.mpr fun hends => h c hc (endsLine_iff.mp hends)

theorem clean_of_mem_linesFrom {line text piece : List Char} (hline : Clean line)
    (h : piece ∈ linesFrom line text) : Clean piece := by
  have hreverse : Clean line.reverse := fun c hc => hline c (mem_reverse.mp hc)
  fun_induction linesFrom line text with
  | case1 => cases h
  | case2 => rwa [mem_singleton.mp h]
  | case3 _ _ ih | case4 _ _ _ _ _ ih =>
    rcases mem_cons.mp h with rfl | h
    · exact hreverse
    · exact ih (by simp [Clean]) h (by simp [Clean])
  | case5 line c rest _ hends ih =>
    have hc : Clean (c :: line) := forall_mem_cons.mpr ⟨fun hc => hends (endsLine_iff.mpr hc), hline⟩
    exact ih hc h fun d hd => hc d (mem_reverse.mp hd)

/-- **`lines` finds lines that were put together** exactly if none of them can be cut. -/
theorem lines_intercalate_iff {pieces : List (List Char)} (hne : ∀ piece ∈ pieces, piece ≠ []) :
    lines (['\n'].intercalate pieces) = pieces ↔ ∀ piece ∈ pieces, Clean piece := by
  constructor
  · intro h piece hpiece
    rw [← h] at hpiece
    exact clean_of_mem_linesFrom (by simp [Clean]) hpiece
  · intro h
    induction pieces with
    | nil => rfl
    | cons piece pieces ih =>
      obtain ⟨hpiece, hpieces⟩ := forall_mem_cons.mp h
      cases pieces with
      | nil =>
        have hline := linesFrom_append_of_inside hpiece.inside [] []
        rw [append_nil, append_nil] at hline
        have hne : piece ≠ [] := hne piece mem_cons_self
        rw [intercalate_singleton, lines, hline]
        simp [linesFrom, hne]
      | cons next pieces =>
        rw [intercalate_cons_cons, append_assoc, singleton_append,
          lines_append_feed hpiece.inside, ih (forall_mem_cons.mp hne).2 hpieces]

end Text

/-- Whether names lead one below the other through a shape. -/
def Shape.Has : Shape → Location → Prop
  | _, [] => True
  | shape, name :: rest => ∃ below, (name, below) ∈ shape.entries ∧ below.Has rest

theorem Node.has_visible_iff {t : Node} (h : t.all isPlain) (l : Location) :
    t.visible.Has l ↔ t.Shows l := by
  induction l generalizing t with
  | nil => exact iff_of_true trivial (shows_nil t)
  | cons name rest ih =>
    rw [shows_cons, visible_eq, Shape.Has, Shape.entries]
    constructor
    · rintro ⟨_, hmem, hrest⟩
      obtain ⟨hname, n, hn, rfl⟩ := (mem_shown (ok_of_all h)).mp hmem
      exact ⟨hname, n, hn, (ih (all_of_child? h hn)).mp hrest⟩
    · rintro ⟨hname, n, hn, hrest⟩
      exact ⟨n.visible, (mem_shown (ok_of_all h)).mpr ⟨hname, n, hn, rfl⟩,
        (ih (all_of_child? h hn)).mpr hrest⟩

namespace Drawing

open Text

/-- No name in a shape ends a line. -/
def NamesClean (shape : Shape) : Prop :=
  ∀ l, shape.Has l → ∀ name ∈ l, Clean name.toList

theorem namesClean_node {es : List (String × Shape)} :
    NamesClean (.node es) ↔ ∀ e ∈ es, Clean e.1.toList ∧ NamesClean e.2 := by
  constructor
  · rintro h ⟨name, below⟩ he
    refine ⟨h [name] ⟨below, he, trivial⟩ name mem_cons_self, fun l hl other hother => ?_⟩
    exact h (name :: l) ⟨below, he, hl⟩ other (mem_cons_of_mem _ hother)
  · rintro h (_ | ⟨name, rest⟩) hl
    · simp
    · obtain ⟨below, hmem, hrest⟩ := hl
      exact forall_mem_cons.mpr ⟨(h _ hmem).1, (h _ hmem).2 rest hrest⟩

theorem clean_trunk (before : String) (isLast : Bool) (h : Clean before.toList) :
    Clean (before ++ trunk isLast).toList := by
  rw [String.toList_append]
  exact clean_append.mpr ⟨h, by cases isLast <;> simp [Clean, trunk, lineEnds]⟩

mutual

/-- **The `lines` of a shape** are `Clean` exactly if its names are. -/
theorem clean_lines {before : String} (hbefore : Clean before.toList) (shape : Shape) :
    (∀ line ∈ lines before shape, Clean line.toList) ↔ NamesClean shape := by
  match shape with
  | .node es =>
    rw [lines, clean_entryLines hbefore es, namesClean_node]

theorem clean_entryLines {before : String} (hbefore : Clean before.toList)
    (es : List (String × Shape)) : (∀ line ∈ entryLines before es, Clean line.toList) ↔
      ∀ e ∈ es, Clean e.1.toList ∧ NamesClean e.2 := by
  match es with
  | [] =>
    rw [entryLines]
    simp
  | (name, shape) :: rest =>
    rw [entryLines_cons, forall_mem_cons, forall_mem_append, forall_mem_cons,
      clean_lines (clean_trunk before rest.isEmpty hbefore) shape, clean_entryLines hbefore rest,
      String.toList_append, clean_append, String.toList_append, clean_append]
    have hbranch : Clean (branch rest.isEmpty).toList := by
      cases rest.isEmpty <;> simp [Clean, branch, lineEnds]
    tauto

end

theorem ne_nil_of_mem_entryLines {before line : String} {es : List (String × Shape)}
    (h : line ∈ entryLines before es) : line.toList ≠ [] := by
  induction es with
  | nil =>
    rw [entryLines] at h
    cases h
  | cons e rest ih =>
    obtain ⟨name, shape⟩ := e
    rw [entryLines_cons, mem_cons, mem_append] at h
    rcases h with rfl | h | h
    · cases rest.isEmpty <;> simp [branch]
    · intro hempty
      have hprefix := prefix_of_mem_lines _ _ h
      rw [hempty, prefix_nil] at hprefix
      cases hlast : rest.isEmpty <;> simp [trunk, hlast] at hprefix
    · exact ih h

end Drawing

namespace Repository

open Text

theorem map_ofList_eq_iff {pieces : List (List Char)} {texts : List String} :
    pieces.map String.ofList = texts ↔ pieces = texts.map String.toList := by
  constructor
  · rintro rfl
    simp [Function.comp_def]
  · rintro rfl
    simp [Function.comp_def]

/-- The path under which a working copy is drawn. -/
def drawnPath (name : String) : String :=
  Path.normalForm (Path.join copies name)

/-- What a working copy is called in its drawing; without a name it is the directory of all. -/
def drawnLabel (name : String) : String :=
  if name = "" then copies else name

theorem label_drawn (name : String) :
    Drawing.label (drawnPath name) (some name) = drawnLabel name := by
  by_cases hname : name = ""
  · subst hname
    decide +kernel
  · simp [Drawing.label, drawnLabel, hname]

variable {name : String} {d : Desk} {t : Node}

/-- `structureOf` cuts the text of the drawing into its `lines`. -/
theorem structureOf_eq {drawn : List String} (hfind : d.files.find? (drawnPath name) = some t)
    (hdrawn : Drawing.linesAt d.files (drawnPath name) "" = .ok drawn) (s : Services) :
    structureOf name s d = (.ok ((Text.lines (['\n'].intercalate
      (((drawnLabel name ++ "/") :: drawn).map String.toList))).map String.ofList), d) := by
  have hdraw : Drawing.draw d.files (drawnPath name) (some name) =
      .ok ("\n".intercalate ((drawnLabel name ++ "/") :: drawn)) := by
    rw [Drawing.draw, hdrawn, label_drawn]
    rfl
  unfold Workspace.find? at hfind
  split at hfind
  next place hplace =>
    unfold drawnPath at hplace hdraw
    simp only [structureOf, Act.desk_bind, hplace, hdraw, Act.ofExcept_ok_bind, Act.pure_apply,
      String.toList_intercalate]
    rfl
  next => cases hfind

/-- **`structureOf` a working copy** is its label and the lines of its directory exactly if no
character of the label or of a name that can be seen ends a line. -/
theorem structureOf_lines_iff (hfind : d.files.find? (drawnPath name) = some t)
    (hdirectory : t.isDirectory = true) (hplain : t.all Node.isPlain = true) :
    ∃ drawn result, Drawing.linesAt d.files (drawnPath name) "" = .ok drawn ∧
      (∀ s, structureOf name s d = (.ok result, d)) ∧
      (result = (drawnLabel name ++ "/") :: drawn ↔
        Clean (drawnLabel name).toList ∧
          ∀ l, t.Shows l → ∀ entry ∈ l, Clean entry.toList) := by
  have hdrawn := Drawing.linesAt_eq hfind hdirectory hplain ""
  refine ⟨_, _, hdrawn, structureOf_eq hfind hdrawn, ?_⟩
  have hnames : (∀ l, t.Shows l → ∀ entry ∈ l, Clean entry.toList) ↔
      ∀ line ∈ Drawing.lines "" t.visible, Clean line.toList := by
    rw [Drawing.clean_lines (by simp [Clean])]
    simp only [Drawing.NamesClean, Node.has_visible_iff hplain]
  have hne : ∀ piece ∈ ((drawnLabel name ++ "/") :: Drawing.lines "" t.visible).map String.toList,
      piece ≠ [] := by
    rw [map_cons, forall_mem_cons, forall_mem_map]
    refine ⟨by simp, fun line hline => ?_⟩
    rw [Node.visible_eq, Drawing.lines] at hline
    exact Drawing.ne_nil_of_mem_entryLines hline
  have hslash : Clean "/".toList := by simp [Clean, lineEnds]
  rw [hnames, map_ofList_eq_iff, lines_intercalate_iff hne, map_cons, forall_mem_cons,
    forall_mem_map, String.toList_append, clean_append, and_iff_left hslash]

/-- A working copy with one file, whose name holds a line separator. -/
def brokenCopy : Node :=
  .directory true [("a\u2028b", .file [])]

def brokenDesk : Desk :=
  { Desk.empty "/" with
    files := ⟨"/", .directory true [(copies, .directory true [("r", brokenCopy)])]⟩ }

/-- The name in `brokenCopy` is cut in two. -/
theorem structureOf_lines_iff_broken : ∃ drawn result,
    Drawing.linesAt brokenDesk.files (drawnPath "r") "" = .ok drawn ∧
      (∀ s, structureOf "r" s brokenDesk = (.ok result, brokenDesk)) ∧ result ≠ "r/" :: drawn := by
  have hpath : Path.components (drawnPath "r") = [copies, "r"] ∧
      Workspace.start brokenDesk.files.home (drawnPath "r") = [] := by decide +kernel
  have hplace : brokenDesk.files.resolve true (drawnPath "r") =
      .ok ⟨[copies, "r"], brokenCopy, linkLimit⟩ := by
    refine Workspace.resolve_eq_ok_iff.mpr
      ⟨by decide +kernel, by decide +kernel, by decide +kernel, ?_⟩
    rw [hpath.1, hpath.2]
    rfl
  have hfind : brokenDesk.files.find? (drawnPath "r") = some brokenCopy := by
    rw [Workspace.find?, hplace]
  obtain ⟨drawn, result, hdrawn, hresult, hiff⟩ :=
    structureOf_lines_iff hfind rfl (by decide +kernel)
  refine ⟨drawn, result, hdrawn, hresult, fun heq => ?_⟩
  have hclean := (hiff.mp heq).2 ["a\u2028b"] ⟨rfl, by decide⟩ _ mem_cons_self
  exact hclean '\u2028' (by decide) (by decide)

end Repository

end CodeAtlas
