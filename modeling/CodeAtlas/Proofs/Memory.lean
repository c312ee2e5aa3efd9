import CodeAtlas.Proofs.Calls

/-!
# What the memory holds

Every project in memory goes back to a request of the run with its name (`Traced`, kept by every
call). In particular the path of a remembered project is always the one that its name is joined to.
-/

namespace CodeAtlas

namespace Repository

variable {r : CloneRequest} {d : Desk} {result : Except Failure String} {name base : String}
  {project : Project} {calls calls' : List (Services × Call)}

/-- `projectsAfter` has the project of the request, if it was answered, and the projects of other
names. -/
theorem get?_projectsAfter_iff : (r.projectsAfter d result).get? name = some project ↔
      ((∃ m, result = .ok m) ∧ name = r.name ∧ project = r.project (copyPath d.files.base r.name)) ∨
        (d.projects.get? name = some project ∧ ((∃ m, result = .ok m) → name ≠ r.name)) := by
  cases result with
  | error e => simp [CloneRequest.projectsAfter]
  | ok m =>
    unfold CloneRequest.projectsAfter
    by_cases hname : name = r.name
    · subst hname
      rw [Projects.get?_set_self]
      simp [eq_comm]
    · rw [Projects.get?_set_of_ne _ hname]
      simp [hname]

/-! ## Requests behind the memory -/

/-- The projects in memory go back to requests among calls. -/
def Traced (base : String) (calls : List (Services × Call)) (d : Desk) : Prop :=
  ∀ name project, d.projects.get? name = some project →
    ∃ s r, (s, Call.fetch r) ∈ calls ∧ name = r.name ∧ project = r.project (copyPath base r.name)

theorem Traced.mono {d' : Desk} (h : Traced base calls d) (hcalls : calls ⊆ calls')
    (hprojects : ∀ name project, d'.projects.get? name = some project →
      d.projects.get? name = some project) : Traced base calls' d' := by
  intro name project hget
  obtain ⟨s, r, hmem, hname, hproject⟩ := h name project (hprojects name project hget)
  exact ⟨s, r, hcalls hmem, hname, hproject⟩

/-- `intoGraph` may forget a project, and remembers nothing new. -/
theorem intoGraph_forgets (name : String) (s : Services) (d : Desk) (other : String) (p : Project)
    (hget : (intoGraph name s d).2.projects.get? other = some p) :
    d.projects.get? other = some p := by
  rcases intoGraph_cases name s d with hquiet | ⟨project, text, -, -, -, hprojects, -⟩
  · exact hquiet.projects ▸ hget
  · rw [hprojects] at hget
    by_cases hother : other = name
    · rw [hother, Projects.get?_erase_self] at hget
      cases hget
    · rwa [Projects.get?_erase_of_ne _ hother] at hget

/-- A call keeps `Traced`, with itself at the end. -/
theorem Traced.perform (h : Traced base calls d) (hbase : d.files.base = base) (s : Services)
    (c : Call) : Traced base (calls ++ [(s, c)]) (c.perform s d) := by
  have hcalls : calls ⊆ calls ++ [(s, c)] := List.subset_append_left _ _
  cases c with
  | survey name =>
    have hquiet := survey_quiet name s d
    exact h.mono hcalls fun _ _ hget => hquiet.projects ▸ hget
  | intoGraph name => exact h.mono hcalls (intoGraph_forgets name s d)
  | fetch r =>
    subst hbase
    intro name project hget
    change (fetch r s d).2.projects.get? name = some project at hget
    rw [fetch_projects] at hget
    -- it is the project of this request, or it was there before
    rcases get?_projectsAfter_iff.mp hget with ⟨-, hname, hproject⟩ | ⟨hold, -⟩
    · exact ⟨s, r, by simp, hname, hproject⟩
    · obtain ⟨s', r', hmem, hname, hproject⟩ := h name project hold
      exact ⟨s', r', hcalls hmem, hname, hproject⟩

/-- From an empty memory, a run keeps `Traced`. -/
theorem traced_afterCalls (calls : List (Services × Call)) (files : Workspace) (record : Record) :
    Traced files.base calls (afterCalls calls ⟨files, [], record⟩) := by
  induction calls using List.reverseRecOn with
  | nil =>
    intro name project hget
    cases hget
  | append_singleton calls c ih =>
    rw [afterCalls_concat]
    exact ih.perform (afterCalls_base calls _) c.1 c.2

end Repository

end CodeAtlas
