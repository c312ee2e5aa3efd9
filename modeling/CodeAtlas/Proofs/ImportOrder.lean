import CodeAtlas.Outline.Python
import Mathlib.Data.List.Sort

/-!
# The order of imports

The imports of a module stand at any depth of it: in functions, in branches, in the handlers of a
guarded block. The outline lists them level by level. Two other descriptions of that list are given
here, and proved to be the same:

* the walk with a queue, which takes a node from the front and puts the nodes in it at the end
  (`breadthFirst`). It ends, because what is put in weighs less than what is taken out
  (`weight_children_lt`);
* all nodes as they follow each other in the text, each before those in it (`preorder`), sorted by
  depth so that nodes of one depth stay as they were.

The link between the three is what one level contributes: a walk yields the nodes of a level and
then walks those below (`breadthFirst_eq`), the sorted text begins with the nodes of the lowest
depth (`byDepth_preorders`), and the levels of the outline have the imports of the nodes at their
head (`flatten_partLevels`).
-/

open List

namespace CodeAtlas.Python

open Script

variable {nodes : List (Nat × Part)}

/-! ## Nodes -/

/-- The nodes that stand directly in a node. -/
def children : Part → List Part
  | .statement (.function _ body) | .statement (.classDef _ body) => body.map .statement
  | .statement (.compound parts) => parts
  | .clause body => body.map .statement
  | .statement _ => []

/-- Whether a node is an import, of modules or from one. -/
def isImport : Part → Bool
  | .statement (.importModules _) | .statement (.importFrom _ _ _) => true
  | _ => false

/-- What a node imports itself: an import of modules has one entry for each name, an import from a
module one entry with all its names. -/
def ownImports : Part → List Import
  | .statement (.importModules names) => names.map .module
  | .statement (.importFrom source names level) => [.members source names level]
  | _ => []

variable {p : Part} {depth : Nat} {a : Nat × Part} {α : Type}

theorem ownImports_eq_nil (h : isImport p = false) : ownImports p = [] := by
  cases p with
  | clause body => rfl
  | statement s =>
    cases s with
    | importModules _ | importFrom _ _ _ => cases h
    | _ => rfl

/-- What nodes weigh together. -/
noncomputable def weight : List Part → Nat
  | [] => 0
  | p :: rest => sizeOf p + weight rest

theorem weight_append (left right : List Part) :
    weight (left ++ right) = weight left + weight right := by
  induction left with
  | nil => simp [weight]
  | cons p rest ih =>
    simp only [cons_append, weight, ih]
    omega

theorem weight_statements_lt (body : List Stmt) :
    weight (body.map Part.statement) < sizeOf body := by
  induction body with
  | nil => simp [weight]
  | cons s rest ih =>
    simp only [map_cons, weight, Part.statement.sizeOf_spec, List.cons.sizeOf_spec]
    omega

theorem weight_lt (parts : List Part) : weight parts < sizeOf parts := by
  induction parts with
  | nil => simp [weight]
  | cons p rest ih =>
    simp only [weight, List.cons.sizeOf_spec]
    omega

/-- The nodes in a node weigh less than the node. -/
theorem weight_children_lt (p : Part) : weight (children p) < sizeOf p := by
  cases p with
  | clause body =>
    have hbody := weight_statements_lt body
    simp only [children, Part.clause.sizeOf_spec]
    omega
  | statement s =>
    cases s with
    | function signature body =>
      have hbody := weight_statements_lt body
      simp only [children, Part.statement.sizeOf_spec, Stmt.function.sizeOf_spec]
      omega
    | classDef head body =>
      have hbody := weight_statements_lt body
      simp only [children, Part.statement.sizeOf_spec, Stmt.classDef.sizeOf_spec]
      omega
    | compound parts =>
      have hparts := weight_lt parts
      simp only [children, Part.statement.sizeOf_spec, Stmt.compound.sizeOf_spec]
      omega
    | _ =>
      simp only [children, weight, Part.statement.sizeOf_spec]
      omega

theorem sizeOf_lt_of_mem_children {c : Part} (h : c ∈ children p) : sizeOf c < sizeOf p := by
  have hweight := weight_children_lt p
  obtain ⟨before, after, hsplit⟩ := append_of_mem h
  rw [hsplit, weight_append, weight] at hweight
  omega

/-- The nodes one level below some nodes weigh less than those. -/
theorem weight_level_lt {nodes : List Part} (h : nodes ≠ []) :
    weight (nodes.flatMap children) < weight nodes := by
  induction nodes with
  | nil => exact absurd rfl h
  | cons p rest ih =>
    have hp := weight_children_lt p
    rw [flatMap_cons, weight_append, weight]
    by_cases hrest : rest = []
    · rw [hrest, flatMap_nil, weight]
      omega
    · have hbelow := ih hrest
      omega

/-- What holds of no nodes, and of nodes if it holds of those one level below them, holds of all
nodes. -/
theorem levelInduction {motive : List Part → Prop} (nil : motive [])
    (level : ∀ nodes, motive (nodes.flatMap children) → motive nodes) (nodes : List Part) :
    motive nodes := by
  induction hweight : weight nodes using Nat.strong_induction_on generalizing nodes with
  | _ bound ih =>
    by_cases hnodes : nodes = []
    · rw [hnodes]
      exact nil
    · apply level
      exact ih _ (hweight ▸ weight_level_lt hnodes) _ rfl

/-! ## Two ways to list all nodes -/

/-- The nodes in the order of a walk with a queue: the first is taken, and the nodes in it are put
at the end. -/
def breadthFirst : (queue : List Part) → List Part
  | [] => []
  | p :: rest => p :: breadthFirst (rest ++ children p)
termination_by queue => weight queue
decreasing_by
  have hchildren := weight_children_lt p
  rw [weight_append, weight]
  omega

/-- A node and all nodes below it as they follow each other in the text, with their depths. -/
def preorder (depth : Nat) (p : Part) : List (Nat × Part) :=
  (depth, p) :: (children p).attach.flatMap fun c => preorder (depth + 1) c.1
termination_by sizeOf p
decreasing_by exact sizeOf_lt_of_mem_children c.2

/-- Nodes sorted by depth; those of one depth stay in their order. -/
def byDepth (nodes : List (Nat × Part)) : List (Nat × Part) :=
  nodes.mergeSort fun a b => a.1 ≤ b.1

/-- The imports of a module in the order of the text, with their depths. -/
def importNodes (m : Module) : List (Nat × Part) :=
  ((m.map Part.statement).flatMap (preorder 0)).filter (isImport ·.2)

theorem preorder_eq (depth : Nat) (p : Part) :
    preorder depth p = (depth, p) :: (children p).flatMap (preorder (depth + 1)) := by
  rw [preorder]
  simp

/-! ## Level by level: the walk -/

/-- `breadthFirst` takes the nodes in the queue one after another, while those in them gather at its
end. -/
theorem breadthFirst_append (nodes queue : List Part) : breadthFirst (nodes ++ queue) =
      nodes ++ breadthFirst (queue ++ nodes.flatMap children) := by
  induction nodes generalizing queue with
  | nil => simp
  | cons p rest ih =>
    rw [cons_append, breadthFirst, append_assoc, ih]
    simp

/-- `breadthFirst` yields the nodes it starts with, and then walks those one level below. -/
theorem breadthFirst_eq (nodes : List Part) :
    breadthFirst nodes = nodes ++ breadthFirst (nodes.flatMap children) := by
  simpa using breadthFirst_append nodes []

/-! ## Level by level: the sorted text -/

/-- Where no node is higher up than a depth, none stands before it. -/
theorem span_lt_of_le (h : ∀ a ∈ nodes, depth ≤ a.1) :
    nodes.takeWhile (·.1 < depth) = [] ∧ nodes.dropWhile (·.1 < depth) = nodes := by
  cases nodes with
  | nil => exact ⟨rfl, rfl⟩
  | cons a rest =>
    have ha : ¬ a.1 < depth := Nat.not_lt.mpr (h a mem_cons_self)
    constructor
    · simp [ha]
    · simp [ha]

/-- `byDepth` puts one more node before the first of those that are not higher up. -/
theorem byDepth_cons (a : Nat × Part) (nodes : List (Nat × Part)) : byDepth (a :: nodes) =
      (byDepth nodes).takeWhile (·.1 < a.1) ++ a :: (byDepth nodes).dropWhile (·.1 < a.1) := by
  have htrans : ∀ a b c : Nat × Part, decide (a.1 ≤ b.1) → decide (b.1 ≤ c.1) →
      decide (a.1 ≤ c.1) := by
    intro a b c hab hbc
    simp only [decide_eq_true_eq] at hab hbc ⊢
    exact hab.trans hbc
  have htotal : ∀ a b : Nat × Part, (decide (a.1 ≤ b.1) || decide (b.1 ≤ a.1)) := by
    intro a b
    simpa using Nat.le_total a.1 b.1
  obtain ⟨before, after, hcons, hrest, hbefore⟩ := mergeSort_cons htrans htotal a nodes
  have hsorted := pairwise_mergeSort htrans htotal (a :: nodes)
  rw [hcons, pairwise_append, pairwise_cons] at hsorted
  have hlow : ∀ b ∈ before, decide (b.1 < a.1) := by
    intro b hb
    simpa using hbefore b hb
  have hhigh : ∀ b ∈ after, a.1 ≤ b.1 := by
    intro b hb
    simpa using hsorted.2.1.1 b hb
  obtain ⟨htake, hdrop⟩ := span_lt_of_le hhigh
  unfold byDepth
  rw [hcons, hrest, takeWhile_append_of_pos hlow, dropWhile_append_of_pos hlow, htake,
    hdrop, append_nil]

theorem mem_byDepth : a ∈ byDepth nodes ↔ a ∈ nodes :=
  mem_mergeSort

/-- `byDepth` begins with the nodes of the lowest depth, in their order. -/
theorem byDepth_eq_lowest (h : ∀ a ∈ nodes, depth ≤ a.1) :
    byDepth nodes = nodes.filter (·.1 = depth) ++ byDepth (nodes.filter (depth < ·.1)) := by
  induction nodes with
  | nil => rfl
  | cons a rest ih =>
    have hrest : ∀ b ∈ rest, depth ≤ b.1 := fun b hb => h b (mem_cons_of_mem _ hb)
    rcases Nat.eq_or_lt_of_le (h a mem_cons_self) with heq | hlt
    · -- nothing is higher up than the node, so it comes first
      have hall : ∀ b ∈ byDepth rest, a.1 ≤ b.1 := by
        intro b hb
        rw [← heq]
        exact hrest b (mem_byDepth.mp hb)
      obtain ⟨htake, hdrop⟩ := span_lt_of_le hall
      rw [byDepth_cons, htake, hdrop, nil_append, ih hrest]
      simp [← heq]
    · -- the nodes of the lowest depth stay before the node
      have hlowest : ∀ b ∈ rest.filter (·.1 = depth), decide (b.1 < a.1) := by
        intro b hb
        have hb' : b.1 = depth := by simpa using (mem_filter.mp hb).2
        simpa [hb'] using hlt
      have hne : ¬ a.1 = depth := by omega
      rw [byDepth_cons, ih hrest, takeWhile_append_of_pos hlowest,
        dropWhile_append_of_pos hlowest, append_assoc, ← byDepth_cons]
      simp [hne, hlt]

theorem le_of_mem_preorder (h : a ∈ preorder depth p) : depth ≤ a.1 := by
  fun_induction preorder depth p with
  | case1 depth p ih =>
    rcases mem_cons.mp h with rfl | hbelow
    · exact Nat.le_refl _
    · obtain ⟨c, -, hc⟩ := mem_flatMap.mp hbelow
      have := ih c hc
      omega

/-- The nodes below some nodes, with those themselves, as they follow each other in the text. -/
theorem filter_preorders (depth : Nat) (nodes : List Part) :
    (nodes.flatMap (preorder depth)).filter (·.1 = depth) = nodes.map (depth, ·) ∧
      (nodes.flatMap (preorder depth)).filter (depth < ·.1) =
        (nodes.flatMap children).flatMap (preorder (depth + 1)) := by
  induction nodes with
  | nil => exact ⟨rfl, rfl⟩
  | cons p rest ih =>
    have hbelow : ∀ a ∈ (children p).flatMap (preorder (depth + 1)), depth < a.1 := by
      intro a ha
      obtain ⟨c, -, hc⟩ := mem_flatMap.mp ha
      exact le_of_mem_preorder hc
    have hnone : ((children p).flatMap (preorder (depth + 1))).filter (·.1 = depth) = [] := by
      rw [filter_eq_nil_iff]
      intro a ha
      have := hbelow a ha
      simp only [decide_eq_true_eq]
      omega
    have hall : ((children p).flatMap (preorder (depth + 1))).filter (depth < ·.1) =
        (children p).flatMap (preorder (depth + 1)) := by
      rw [filter_eq_self]
      intro a ha
      simpa using hbelow a ha
    simp only [flatMap_cons, preorder_eq, filter_append, filter_cons, hnone, hall]
    constructor
    · simp [ih.1]
    · simp [ih.2, flatMap_append]

/-- Nodes of a kind, sorted by depth, begin with those of them that the text was taken from. -/
theorem byDepth_preorders (keep : Part → Bool) (depth : Nat) (nodes : List Part) :
    byDepth ((nodes.flatMap (preorder depth)).filter (keep ·.2)) =
      (nodes.filter keep).map (depth, ·) ++
        byDepth (((nodes.flatMap children).flatMap (preorder (depth + 1))).filter (keep ·.2)) := by
  obtain ⟨hhere, hbelow⟩ := filter_preorders depth nodes
  have hdepth : ∀ a ∈ (nodes.flatMap (preorder depth)).filter (keep ·.2), depth ≤ a.1 := by
    intro a ha
    obtain ⟨p, -, hp⟩ := mem_flatMap.mp (mem_filter.mp ha).1
    exact le_of_mem_preorder hp
  have hswap : ∀ q : Nat × Part → Bool,
      ((nodes.flatMap (preorder depth)).filter (keep ·.2)).filter q =
        ((nodes.flatMap (preorder depth)).filter q).filter (keep ·.2) := by
    intro q
    simp only [filter_filter, Bool.and_comm]
  rw [byDepth_eq_lowest hdepth, hswap, hswap, hhere, hbelow, filter_map]
  rfl

/-- **The walk as a sort.** `breadthFirst` comes to the nodes of any kind in the order of the text
sorted by depth. -/
theorem filter_breadthFirst (keep : Part → Bool) (nodes : List Part) (depth : Nat) :
    (breadthFirst nodes).filter keep =
      (byDepth ((nodes.flatMap (preorder depth)).filter (keep ·.2))).map Prod.snd := by
  induction nodes using levelInduction generalizing depth with
  | nil => simp [breadthFirst, byDepth]
  | level nodes ih =>
    rw [breadthFirst_eq, byDepth_preorders, filter_append, map_append, ih (depth + 1), map_map]
    simp [Function.comp_def]

/-! ## Level by level: the outline -/

theorem mergeLevels_nil (ls : List (List α)) : mergeLevels ls [] = ls := by
  cases ls <;> rfl

theorem headD_mergeLevels (ls ms : List (List α)) :
    (mergeLevels ls ms).headD [] = ls.headD [] ++ ms.headD [] := by
  cases ls with
  | nil => rfl
  | cons l ls =>
    cases ms with
    | nil => simp [mergeLevels]
    | cons m ms => rfl

theorem tail_mergeLevels (ls ms : List (List α)) :
    (mergeLevels ls ms).tail = mergeLevels ls.tail ms.tail := by
  cases ls with
  | nil => rfl
  | cons l ls =>
    cases ms with
    | nil => simp [mergeLevels, mergeLevels_nil]
    | cons m ms => rfl

theorem mergeLevels_assoc (ls ms ns : List (List α)) :
    mergeLevels (mergeLevels ls ms) ns = mergeLevels ls (mergeLevels ms ns) := by
  induction ls generalizing ms ns with
  | nil => rfl
  | cons l ls ih =>
    cases ms with
    | nil => rfl
    | cons m ms =>
      cases ns with
      | nil => rfl
      | cons n ns => simp [mergeLevels, ih]

def nodeLevels : Part → List (List Import)
  | .statement s => importLevels s
  | .clause body => [] :: bodyLevels body

theorem partLevels_cons (p : Part) (rest : List Part) :
    partLevels (p :: rest) = mergeLevels (nodeLevels p) (partLevels rest) := by
  cases p <;> rfl

theorem partLevels_append (parts rest : List Part) :
    partLevels (parts ++ rest) = mergeLevels (partLevels parts) (partLevels rest) := by
  induction parts with
  | nil => rfl
  | cons p parts ih =>
    rw [cons_append, partLevels_cons, partLevels_cons, ih, mergeLevels_assoc]

theorem bodyLevels_eq (body : List Stmt) : bodyLevels body = partLevels (body.map .statement) := by
  induction body with
  | nil => rfl
  | cons s rest ih =>
    rw [map_cons, partLevels_cons, ← ih]
    rfl

theorem headD_nodeLevels (p : Part) : (nodeLevels p).headD [] = ownImports p := by
  cases p with
  | clause body => rfl
  | statement s => cases s <;> rfl

theorem tail_nodeLevels (p : Part) : (nodeLevels p).tail = partLevels (children p) := by
  cases p with
  | clause body => exact bodyLevels_eq body
  | statement s =>
    cases s with
    | function _ body | classDef _ body => exact bodyLevels_eq body
    | _ => rfl

theorem headD_partLevels (nodes : List Part) :
    (partLevels nodes).headD [] = nodes.flatMap ownImports := by
  induction nodes with
  | nil => rfl
  | cons p rest ih =>
    rw [partLevels_cons, headD_mergeLevels, headD_nodeLevels, ih, flatMap_cons]

theorem tail_partLevels (nodes : List Part) :
    (partLevels nodes).tail = partLevels (nodes.flatMap children) := by
  induction nodes with
  | nil => rfl
  | cons p rest ih =>
    rw [partLevels_cons, tail_mergeLevels, tail_nodeLevels, ih, flatMap_cons, partLevels_append]

theorem flatten_partLevels (nodes : List Part) : (partLevels nodes).flatten =
      nodes.flatMap ownImports ++ (partLevels (nodes.flatMap children)).flatten := by
  rw [← headD_partLevels, ← tail_partLevels]
  cases partLevels nodes with
  | nil | cons _ _ => rfl

/-- `partLevels`, one after another, are what a walk finds. -/
theorem flatten_partLevels_eq_walk (nodes : List Part) :
    (partLevels nodes).flatten = (breadthFirst nodes).flatMap ownImports := by
  induction nodes using levelInduction with
  | nil => simp [partLevels, breadthFirst]
  | level nodes ih => rw [flatten_partLevels, breadthFirst_eq, flatMap_append, ih]

/-! ## The imports of a module -/

theorem flatMap_ownImports_filter (nodes : List Part) :
    (nodes.filter isImport).flatMap ownImports = nodes.flatMap ownImports := by
  induction nodes with
  | nil => rfl
  | cons p rest ih =>
    by_cases hp : isImport p
    · rw [filter_cons_of_pos hp, flatMap_cons, flatMap_cons, ih]
    · rw [filter_cons_of_neg hp, flatMap_cons, ih,
        ownImports_eq_nil (Bool.not_eq_true _ ▸ hp), nil_append]

/-- **The imports of a module**, whatever is nested in what. They are what the walk with a queue
finds, which comes to every node once; in other words, the imports in the order of the text, sorted
by depth. So each import of modules has one entry for each of its names and each import from a
module has one entry, none is lost and none is repeated. -/
theorem imports_by_depth (m : Module) :
    (outlineOf m).imports =
        (byDepth (importNodes m)).flatMap (fun node => ownImports node.2) ∧
      (outlineOf m).imports.Perm ((importNodes m).flatMap fun node => ownImports node.2) ∧
      (outlineOf m).imports = (breadthFirst (m.map .statement)).flatMap ownImports ∧
      (breadthFirst (m.map .statement)).Perm
        (((m.map Part.statement).flatMap (preorder 0)).map Prod.snd) := by
  have hwalk : (outlineOf m).imports = (breadthFirst (m.map .statement)).flatMap ownImports := by
    show (bodyLevels m).flatten = _
    rw [bodyLevels_eq, flatten_partLevels_eq_walk]
  have hsorted : (outlineOf m).imports =
      (byDepth (importNodes m)).flatMap fun node => ownImports node.2 := by
    rw [hwalk, ← flatMap_ownImports_filter, filter_breadthFirst isImport _ 0, flatMap_map]
    rfl
  refine ⟨hsorted, ?_, hwalk, ?_⟩
  · rw [hsorted]
    exact (mergeSort_perm _ _).flatMap_right _
  · have hall := filter_breadthFirst (fun _ => true) (m.map .statement) 0
    simp only [filter_true] at hall
    rw [hall]
    exact (mergeSort_perm _ _).map _

end CodeAtlas.Python
