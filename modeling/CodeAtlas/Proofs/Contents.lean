import CodeAtlas.Proofs.Changes

/-!
# New contents of a file

Where a path leads depends on directories and links, not on what files hold. So after new contents
are put into one file, every path leads where it led (`Alike.resolveFrom`), and what is read under a
path is either the new contents instead of the old ones or what was read before (`readFile_put`).
-/

namespace CodeAtlas

namespace Workspace

variable {w : Workspace}
variable {w' : Workspace}

/-! ## Trees that differ in the contents of files -/

/-- Two workspaces that hold nodes of one kind at every place. -/
structure Alike (w w' : Workspace) : Prop where
  base : w'.base = w.base
  sameKind : ∀ l, SameKind (w.root.at? l) (w'.root.at? l)

/-- Where a path leads, without what is there. -/
def goal (p : Place) : Location × Nat :=
  (p.location, p.linksLeft)

/-- `resolveFrom` leads to the same place in both, or fails for the same cause. -/
theorem Alike.resolveFrom (h : Alike w w') (followLast : Bool) (links : Nat) (l : Location)
    (names : List String) : (w'.resolveFrom followLast links l names).map goal =
      (w.resolveFrom followLast links l names).map goal := by
  induction links using Nat.strong_induction_on generalizing l names with
  | _ links ihLinks =>
  induction names generalizing l with
  | nil =>
    rw [resolveFrom_nil, resolveFrom_nil]
    have hkind := h.sameKind l
    generalize w.root.at? l = found at hkind
    generalize w'.root.at? l = found' at hkind
    cases hkind <;> rfl
  | cons name rest ih =>
    refine resolveFrom_cons_congr goal (h.sameKind l) (fun _ => ih l) (fun _ => ih l.dropLast)
      (fun _ => ⟨h.sameKind (l ++ [name]), ih (l ++ [name])⟩) fun _ target _ => ?_
    cases links with
    | zero => rfl
    | succ links =>
      simp only [follow]
      split
      · rfl
      · exact ihLinks links (Nat.lt_succ_self _) _ _

theorem Alike.resolve (h : Alike w w') (followLast : Bool) (path : String) :
    (w'.resolve followLast path).map goal = (w.resolve followLast path).map goal := by
  have hhome : w'.home = w.home := congrArg Path.properComponents h.base
  unfold Workspace.resolve
  rw [hhome]
  split
  · rfl
  split
  · rfl
  split
  · rfl
  have hfrom := h.resolveFrom followLast linkLimit (start w.home path) (Path.components path)
  obtain ⟨cause, hw', hw⟩ | ⟨p', p, hw', hw, hgoal⟩ := error_or_ok_of_map_eq hfrom
  · rw [hw, hw']
  · rw [hw, hw']
    exact congrArg Except.ok hgoal

/-- `readFile` gives the contents of the file at one place in either workspace, or nothing for the
same reason. -/
theorem Alike.readFile (h : Alike w w') (path : String) :
    (∃ l bytes bytes', w.root.at? l = some (.file bytes) ∧ w'.root.at? l = some (.file bytes') ∧
      w.readFile path = .ok bytes ∧ w'.readFile path = .ok bytes') ∨
    w'.readFile path = w.readFile path := by
  have hresolve := h.resolve true path
  unfold Workspace.readFile
  obtain ⟨e, hw', hw⟩ | ⟨p', p, hw', hw, hgoal⟩ := error_or_ok_of_map_eq hresolve
  · exact .inr (by rw [hw, hw'])
  · rw [hw, hw']
    have hlocation : p'.location = p.location := congrArg Prod.fst hgoal
    have hat := at?_of_resolve hw
    have hat' := at?_of_resolve hw'
    have hkind := h.sameKind p.location
    rw [hat, ← hlocation, hat'] at hkind
    obtain ⟨location, node, linksLeft⟩ := p
    obtain ⟨location', node', linksLeft'⟩ := p'
    simp only at hkind hat hat' hlocation
    cases hkind with
    | file bytes bytes' =>
      exact .inl ⟨location, bytes, bytes', hat, hlocation ▸ hat', rfl, rfl⟩
    | link | directory => exact .inr rfl

/-! ## Putting new contents into a file -/

theorem at?_file_of_ne_nil (bytes : List UInt8) {l : Location} (h : l ≠ []) :
    (Node.file bytes).at? l = none := by
  obtain ⟨name, rest, rfl⟩ := List.exists_cons_of_ne_nil h
  rfl

variable {place : Location} {old : List UInt8}

theorem at?_put_self {old : Node} (hold : w.root.at? place = some old) (new : Node) :
    (w.put place new).root.at? place = some new := by
  have hbelow := Node.at?_alter_of_below (f := fun _ => some new) hold rfl []
  rwa [List.append_nil] at hbelow

theorem alike_put (hold : w.root.at? place = some (.file old)) (new : List UInt8) :
    Alike w (w.put place (.file new)) := by
  refine ⟨rfl, fun l => ?_⟩
  by_cases hbelow : place <+: l
  · obtain ⟨r, rfl⟩ := hbelow
    rw [put_root, Node.at?_alter_of_below hold rfl, Node.at?_append, hold, Option.bind_some]
    by_cases hr : r = []
    · subst hr
      exact .file old new
    · rw [at?_file_of_ne_nil old hr, at?_file_of_ne_nil new hr]
      exact .none
  · cases hat : w.root.at? l with
    | none =>
      have hsome := Node.isSome_at?_alter (fun _ => some (.file new)) w.root hbelow
      rw [hat, ← put_root, Option.isSome_none, Option.isSome_eq_false_iff,
        Option.isNone_iff_eq_none] at hsome
      rw [hsome]
      exact .none
    | some n =>
      obtain ⟨n', hn', hfits, hfits'⟩ := (change_spares w place _).kept l n hbelow hat
      rw [put, hn']
      exact .of_fits hfits' hfits

/-- After new contents are `put` into a file, a path under which the old ones were read may give the
new ones; what is read under any other path stays as it was. -/
theorem readFile_put (hold : w.root.at? place = some (.file old)) (new : List UInt8)
    (path : String) :
    (w.readFile path = .ok old ∧ (w.put place (.file new)).readFile path = .ok new) ∨
      (w.put place (.file new)).readFile path = w.readFile path := by
  rcases (alike_put hold new).readFile path with
    ⟨l, bytes, bytes', hat, hat', hread, hread'⟩ | hsame
  · by_cases hl : l = place
    · subst hl
      rw [hold] at hat
      rw [at?_put_self hold] at hat'
      cases hat
      cases hat'
      exact .inl ⟨hread, hread'⟩
    · -- a file elsewhere is beside the one that changed: neither has anything below it
      refine .inr ?_
      have hbelow : ¬ place <+: l := by
        rintro ⟨r, rfl⟩
        rw [Node.at?_append, hold, Option.bind_some,
          at?_file_of_ne_nil old (fun hr => hl (by simp [hr]))] at hat
        cases hat
      have habove : ¬ l <+: place := by
        rintro ⟨r, rfl⟩
        rw [Node.at?_append, hat, Option.bind_some,
          at?_file_of_ne_nil bytes (fun hr => hl (by simp [hr]))] at hold
        cases hold
      have hbeside := (change_spares w place fun _ => some (.file new)).beside l hbelow habove
      rw [← put, hat, hat'] at hbeside
      cases hbeside
      rw [hread, hread']
  · exact .inr hsame

end Workspace

end CodeAtlas
