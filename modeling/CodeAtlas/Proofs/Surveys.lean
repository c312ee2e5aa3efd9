import CodeAtlas.Proofs.Calls
import CodeAtlas.Proofs.Reading
import CodeAtlas.Proofs.Utf8
import Mathlib.Data.List.Forall2
import Mathlib.Data.List.Nodup

/-!
# What a survey answers

A survey of a project whose path is a readable directory fails exactly if one of its files is
refused by the reading of its language: scripts in SQL always are, and files in Python are if their
bytes are no text. Otherwise there is one report on each file, in the order of a walk.
-/

open List

namespace CodeAtlas

open CodeAtlas.Path Workspace

variable {bytes : List UInt8}

namespace Survey

open Text.Utf8 (IsUtf8)

/-- A file that `report` refuses: SQL always, Python if its bytes are no text. -/
def Refused (path : String) (bytes : List UInt8) : Prop :=
  Language.detect? path = some .sql ∨ (Language.detect? path = some .python ∧ ¬ IsUtf8 bytes)

/-- The name of the language that `report` gives for a file. -/
def languageName (path : String) : String :=
  match Language.detect? path with
  | some language => language.name
  | none => otherName path

/-! ## One file -/

variable {w : Workspace} {path : String}

/-- `plain`, for a language whose outline never fails, has a report on every file. -/
theorem plain_eq_ok (hread : w.readFile path = .ok bytes) (language : Language)
    (find : List Char → Finding) :
    ∃ finding, plain w path language find = .ok ⟨path, some language.name, finding⟩ := by
  unfold plain readText
  rw [hread]
  exact ⟨_, rfl⟩

/-- `python` fails exactly if the bytes of the file are no text. -/
theorem python_cases (hread : w.readFile path = .ok bytes) :
    (IsUtf8 bytes ∧ ∃ finding, python w path = .ok ⟨path, some Language.python.name, finding⟩) ∨
      (¬ IsUtf8 bytes ∧ ∃ why, python w path = .error why) := by
  unfold python
  rw [hread, Text.Utf8.isUtf8_iff]
  simp only [Except.mapError, bind, Except.bind]
  cases hdecode : Text.Utf8.decode bytes with
  | ok code => exact .inl ⟨⟨code, rfl⟩, _, rfl⟩
  | error fault =>
    refine .inr ⟨?_, _, rfl⟩
    rintro ⟨text, htext⟩
    cases htext

/-- `report` has a report on a file that can be read exactly if it is not `Refused`, whoever
helps. -/
theorem report_cases (helper : Option Assistant.Helper) (hread : w.readFile path = .ok bytes) :
    (¬ Refused path bytes ∧
        ∃ finding, report w helper path = .ok ⟨path, some (languageName path), finding⟩) ∨
      (Refused path bytes ∧ ∃ why, report w helper path = .error why) := by
  unfold report Refused languageName
  cases hlanguage : Language.detect? path with
  | none =>
    refine .inl ⟨by simp, ?_⟩
    simp only
    unfold inOther readText
    rw [hread]
    exact ⟨_, rfl⟩
  | some language =>
    simp only [Option.some.injEq]
    cases language with
    | python =>
      rcases python_cases hread with ⟨hvalid, hok⟩ | ⟨hinvalid, herror⟩
      · exact .inl ⟨by simp [hvalid], hok⟩
      · exact .inr ⟨.inr ⟨rfl, hinvalid⟩, herror⟩
    | sql =>
      refine .inr ⟨.inl rfl, ?_⟩
      unfold inLanguage readText
      rw [hread]
      exact ⟨_, rfl⟩
    | typeScript => exact .inl ⟨by simp, _, rfl⟩
    | java | javaScript | go | ruby | kotlin | rust | cpp | c | cSharp | php | swift | objectiveC =>
      exact .inl ⟨by simp, plain_eq_ok hread _ _⟩

end Survey

/-! ## All files -/

namespace Repository

open Survey (Refused languageName)

variable {α : Type} {make : α → Except Refusal Report} {files : List α} {paths : List String}

theorem reportsOn_map {β : Type} (g : β → α) (files : List β) :
    reportsOn make (files.map g) = reportsOn (fun file => make (g file)) files := by
  induction files with
  | nil => rfl
  | cons file rest ih => rw [map_cons, reportsOn, reportsOn, ih]

/-- Where nobody helps, it does not matter how many files came before. -/
theorem reportsAt_none (w : Workspace) (path : String) :
    reportsAt w none path = reportsOn (Survey.report w none) (w.filesAt path) := by
  have hpaths : (w.filesAt path).zipIdx.map Prod.fst = w.filesAt path := by
    simp [zipIdx_map_fst]
  conv => rhs; rw [← hpaths, reportsOn_map]
  rfl

end Repository

end CodeAtlas
