import CodeAtlas.Projects
import Mathlib.Data.List.Basic

/-!
# Fields and projects by name

What is found under a name after a field was set, or a project remembered or forgotten.
-/

open List

namespace CodeAtlas

namespace Json

variable {α : Type}

theorem lookup_setField_self (fields : List (String × α)) (key : String) (value : α) :
    (setField fields key value).lookup key = some value := by
  induction fields with
  | nil => simp [setField]
  | cons f rest ih =>
    obtain ⟨k, v⟩ := f
    by_cases hk : k = key
    · simp [setField, hk]
    · have hk' : (key == k) = false := by simpa using fun h => hk h.symm
      simp [setField, hk, lookup_cons, hk', ih]

theorem lookup_setField_of_ne (fields : List (String × α)) {key other : String} (h : other ≠ key)
    (value : α) : (setField fields key value).lookup other = fields.lookup other := by
  have hother : (other == key) = false := by simpa using h
  induction fields with
  | nil => simp [setField, lookup_cons, hother]
  | cons f rest ih =>
    obtain ⟨k, v⟩ := f
    by_cases hk : k = key
    · subst hk
      simp [setField, lookup_cons, hother]
    · simp only [setField, hk, if_false, lookup_cons, ih]

end Json

namespace Projects

theorem get?_set_self (ps : Projects) (name : String) (p : Project) :
    (ps.set name p).get? name = some p :=
  Json.lookup_setField_self ps name p

theorem get?_set_of_ne (ps : Projects) {name other : String} (h : other ≠ name) (p : Project) :
    (ps.set name p).get? other = ps.get? other :=
  Json.lookup_setField_of_ne ps h p

theorem get?_erase_self (ps : Projects) (name : String) : (ps.erase name).get? name = none := by
  unfold get? erase
  rw [lookup_eq_none_iff]
  intro e he
  have hne : e.1 ≠ name := by simpa using of_mem_filter he
  simpa using fun h => hne h.symm

theorem get?_erase_of_ne (ps : Projects) {name other : String} (h : other ≠ name) :
    (ps.erase name).get? other = ps.get? other := by
  unfold get? erase
  induction ps with
  | nil => rfl
  | cons e rest ih =>
    obtain ⟨k, p⟩ := e
    by_cases hk : k = name
    · have hother : (other == name) = false := by simpa using h
      simp [hk, lookup_cons, hother, ih]
    · simp [hk, lookup_cons, ih]

end Projects

end CodeAtlas
