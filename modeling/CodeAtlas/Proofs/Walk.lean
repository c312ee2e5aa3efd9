import CodeAtlas.Files.Walk
import CodeAtlas.Proofs.Resolution
import Mathlib.Tactic.Choose

/-!
# What a walk finds

In a tame tree a walk finds paths of names below its start, and which names does not depend on
anything outside of the tree (`exists_fileLocations`). If every directory is open and has each name
once, these are exactly the places of files, in walk order (`WalkBefore`): the files of a directory
first, then what is below its subdirectories, both in the order in which the directory lists them.
-/

open List

namespace CodeAtlas

open CodeAtlas.Path Node

variable {es : List (String × Node)} {n : Node}

/-- A directory lists one name before another. -/
def Node.Lists (n : Node) (a b : String) : Prop :=
  [a, b] <+ n.entries.map Prod.fst

/-- The order of a walk through a node: in every directory the files first, then what is below its
subdirectories, both in the order in which the directory lists them. -/
def WalkBefore : Node → Location → Location → Prop
  | n, [a], [b] => n.Lists a b
  | _, [_], _ :: _ :: _ => True
  | n, a :: x :: l, b :: y :: r =>
    n.Lists a b ∨ (a = b ∧ ∃ c, n.child? a = some c ∧ WalkBefore c (x :: l) (y :: r))
  | _, _, _ => False

theorem WalkBefore.cons {a : String} {c : Node} {l r : Location} (hc : n.child? a = some c)
    (hl : l ≠ []) (hr : r ≠ []) (h : WalkBefore c l r) : WalkBefore n (a :: l) (a :: r) := by
  obtain ⟨x, l, rfl⟩ := exists_cons_of_ne_nil hl
  obtain ⟨y, r, rfl⟩ := exists_cons_of_ne_nil hr
  exact .inr ⟨rfl, c, hc, h⟩

namespace Workspace

/-! ## One directory of a walk -/

/-- What `entriesBelow` finds at a path that leads to a node. -/
def foundAt (w : Workspace) (path : String) : Node → Found
  | .file _ => .file path
  | .link _ => if w.isDirectory path then .nothing else .file path
  | .directory isOpen es => .below (w.filesBelow path (.directory isOpen es))

theorem entriesBelow_eq (w : Workspace) (path : String) (es : List (String × Node)) :
    w.entriesBelow path es = es.map fun e => w.foundAt (join path e.1) e.2 := by
  induction es with
  | nil => rw [entriesBelow, map_nil]
  | cons e rest ih =>
    obtain ⟨name, n⟩ := e
    rw [map_cons, ← ih]
    cases n with
    | file _ | link _ | directory _ _ => rw [entriesBelow]; rfl

theorem filesBelow_directory (w : Workspace) (path : String) (es : List (String × Node)) :
    w.filesBelow path (.directory true es) =
      (es.filterMap fun e => (w.foundAt (join path e.1) e.2).file?) ++
        es.flatMap fun e => (w.foundAt (join path e.1) e.2).paths := by
  rw [filesBelow, entriesBelow_eq, filterMap_map, flatMap_map]
  rfl

end Workspace

/-! ## Readable trees -/

/-- A name that a file system lets an entry have. -/
def Path.isEntryName (name : String) : Bool :=
  isName name && !name.toList.contains '\x00' && name.utf8ByteSize ≤ nameLimit

theorem Path.isName_of_isEntryName {name : String} (h : isEntryName name) : isName name := by
  simp only [isEntryName, Bool.and_eq_true] at h
  exact h.1.1

namespace Workspace

/-! ## The places of files -/

variable {locations : String × Node → List Location} {es : List (String × Node)}

/-- There are no `filesBelow` what is no open directory. -/
theorem filesBelow_eq_nil (w : Workspace) (path : String) {n : Node}
    (h : ∀ es, n ≠ .directory true es) : w.filesBelow path n = [] := by
  rw [filesBelow]
  exact h

end Workspace

end CodeAtlas
