import CodeAtlas.Proofs.Confinement
import CodeAtlas.Proofs.Memory
import CodeAtlas.Proofs.NormalForm
import CodeAtlas.Proofs.Surveys

/-!
# Projects do not disturb each other

All projects share one memory and one directory of working copies. As long as their names are names
and git keeps to the working copy that it is asked about (`KeepsToCopy`), a call about one of them
changes at most its own entry of the memory and its own working copy (`Call.perform_advances`),
whatever its outcome. So every other project is remembered as it was, has the working copy it had,
and is surveyed with the same result (`SameProject`, `call_spares_others`).
-/

open List

namespace CodeAtlas

open CodeAtlas.Path

namespace Survey

/-- `report` depends on what is read under a path and under its normal form. -/
theorem report_congr_readFile {w w' : Workspace} {path : String}
    (helper : Option Assistant.Helper) (h : w'.readFile path = w.readFile path)
    (hnormal : w'.readFile (normalForm path) = w.readFile (normalForm path)) :
    report w' helper path = report w helper path := by
  have htext : ∀ {p : String}, w'.readFile p = w.readFile p → readText w' p = readText w p := by
    intro p hp
    rw [readText, readText, hp]
  unfold report
  cases Language.detect? path with
  | none =>
    simp only [inOther]
    rw [htext h]
  | some language =>
    -- only an outline in TypeScript is taken from the file at the normal form
    cases language with
    | python =>
      simp only [inLanguage, python]
      rw [h]
    | typeScript =>
      simp only [inLanguage, typeScript]
      rw [htext hnormal]
    | _ =>
      simp only [inLanguage, plain]
      rw [htext h]

/-- So does what `questions` ask about a file. -/
theorem questions_congr_readFile {w w' : Workspace} {path : String}
    (h : w'.readFile path = w.readFile path) : questions w' path = questions w path := by
  unfold questions readText
  rw [h]

end Survey

namespace Repository

open Act Workspace

/-! ## Changes in a working copy -/

/-- Git, asked about the working copy of a project, changes nothing but what is at its place, and
makes no link. -/
def KeepsToCopy (s : Services) (base name : String) : Prop :=
  ∀ c files, c.path? = some (copyPath base name) →
    Advances base copies name files (filesAfter s c files)

theorem isName_copies : isName copies := by decide

variable {s : Services} {d : Desk} {calls : List (Services × Call)} {base name other : String}

theorem spells_copyPath (hbase : Spells base (properComponents base)) (hname : isName name) :
    Spells (copyPath base name) (properComponents base ++ [copies, name]) := by
  have hspells := (hbase.join isName_copies).join hname
  rwa [append_assoc] at hspells

/-- `fetch` changes files in the working copy of its project alone. -/
theorem changesFilesBy_advances (hs : KeepsToCopy s base name) :
    ChangesFilesBy (Advances base copies name) s base (copyPath base name) where
  parent _ _ h := makeDirectories_advances isName_copies name h
  git := hs

theorem get?_projectsAfter_of_ne {r : CloneRequest} {result : Except Failure String}
    (hne : other ≠ r.name) :
    (r.projectsAfter d result).get? other = d.projects.get? other := by
  cases result with
  | error e => rfl
  | ok m => exact Projects.get?_set_of_ne _ hne _

/-- **What a call can change**: the working copy of its project, and its entry of the memory. -/
theorem Call.perform_advances (htraced : Traced base calls d) (hd : d.files.base = base) (c : Call)
    (hname : isName c.subject) (hs : KeepsToCopy s base c.subject) :
    Advances base copies c.subject d.files (c.perform s d).files ∧
      ∀ other, other ≠ c.subject → (c.perform s d).projects.get? other = d.projects.get? other := by
  subst hd
  cases c with
  | survey name =>
    have hquiet := survey_quiet name s d
    change Advances _ _ _ _ (Repository.survey name s d).2.files ∧ ∀ other, _ →
      (Repository.survey name s d).2.projects.get? other = _
    rw [hquiet.files, hquiet.projects]
    exact ⟨refl_of (Advances _ _ _) _, fun _ _ => rfl⟩
  | intoGraph name =>
    change Advances _ _ _ _ (Repository.intoGraph name s d).2.files ∧ ∀ other, _ →
      (Repository.intoGraph name s d).2.projects.get? other = _
    rcases intoGraph_cases name s d with hquiet | ⟨project, -, hproject, -, hfiles, hprojects, -⟩
    · rw [hquiet.files, hquiet.projects]
      exact ⟨refl_of (Advances _ _ _) _, fun _ _ => rfl⟩
    · -- the project is removed from the path that its name is joined to
      obtain ⟨s', r, -, rfl, rfl⟩ := htraced name project hproject
      rw [hfiles, hprojects]
      refine ⟨fun htidy => ?_, fun other hne => Projects.get?_erase_of_ne _ hne⟩
      exact removeTree_advances hname (spells_copyPath htidy.spells hname) _ htidy
  | fetch r =>
    refine ⟨fetch_files (changesFilesBy_advances hs), fun other hne => ?_⟩
    change (Repository.fetch r s d).2.projects.get? other = _
    rw [fetch_projects, get?_projectsAfter_of_ne hne]

/-- Along a run the directory of all working copies stays `Tidy`. -/
theorem tidy_afterCalls {files : Workspace} (htidy : Tidy files.base copies files)
    (hcalls : ∀ call ∈ calls, isName call.2.subject ∧
      KeepsToCopy call.1 files.base call.2.subject) (record : Record) :
    Tidy files.base copies (afterCalls calls ⟨files, [], record⟩).files := by
  induction calls using reverseRecOn with
  | nil => exact htidy
  | append_singleton calls call ih =>
    obtain ⟨hname, hs⟩ := hcalls call (by simp)
    have hbefore := ih fun c hc => hcalls c (by simp [hc])
    have hadvances := (Call.perform_advances (traced_afterCalls calls files record)
      hbefore.base call.2 hname hs).1
    rw [afterCalls_concat]
    exact (hadvances hbefore).1

/-! ## Surveys of other projects -/

theorem reportsOn_congr {α : Type} {make make' : α → Except Refusal Report} {files : List α}
    (h : ∀ file ∈ files, make' file = make file) : reportsOn make' files = reportsOn make files := by
  induction files with
  | nil => rfl
  | cons file rest ih =>
    rw [reportsOn, reportsOn, h file mem_cons_self, ih fun f hf => h f (mem_cons_of_mem _ hf)]

section Beside

variable {w w' : Workspace}

/-- What is found at `copyPath` is what is at the place it spells. -/
theorem at?_of_find?_copyPath (h : Tidy base copies w) (hother : isName other) {n : Node}
    (hn : w.find? (copyPath base other) = some n) :
    w.root.at? (properComponents base ++ [copies, other]) = some n :=
  h.at?_of_find? (spells_copyPath h.spells hother) (prefix_rfl (l := [copies, other])) hn

theorem find?_copyPath_of_none (h : Tidy base copies w) (hother : isName other)
    (hnone : w.root.at? (properComponents base ++ [copies, other]) = none) :
    w.find? (copyPath base other) = none := by
  cases hn : w.find? (copyPath base other) with
  | none => rfl
  | some n => cases hnone.symm.trans (at?_of_find?_copyPath h hother hn)

/-- Where the working copy of another project was spared, its `copyPath` leads to what it led to. -/
theorem find?_beside (h : Tidy base copies w) (h' : Tidy base copies w')
    (hs : Spares (properComponents base ++ [copies, name]) w w') (hother : isName other)
    (hne : other ≠ name) : w'.find? (copyPath base other) = w.find? (copyPath base other) := by
  cases hat : w.root.at? (properComponents base ++ [copies, other]) with
  | none =>
    have hnone := hs.at?_beside hne []
    rw [hat] at hnone
    rw [find?_copyPath_of_none h hother hat, find?_copyPath_of_none h' hother hnone]
  | some n =>
    unfold Workspace.find?
    rw [hs.resolve_beside h hne hat (spells_copyPath h.spells hother)]

end Beside

/-! ## Isolation -/

theorem resolved_of_spells {path : String} {l : List String} (h : Spells path l) :
    resolved path = l := by
  rw [resolved, foldl_step_eq_filter h.points_not_mem, nil_append, ← properComponents_eq,
    h.proper]

theorem isTame_sampleCopy (url : String) {file : String} (hfile : file = "one" ∨ file = "two") :
    (sampleCopy url file).all Node.isTame := by
  rcases hfile with rfl | rfl <;>
    simp [sampleCopy, Node.all, Node.allEntries, Node.isTame, isName]

/-- `sampleGit` puts a clone in its place and finds its origin there, or it leaves the files as they
are. -/
theorem sampleGit_cases (c : CopyCommand) (files : Workspace) :
    (filesAfter twoRepositories c files = files ∧
        ∀ url path, c = .clone url path → (sampleGit c files).1 ≠ .ok ()) ∨
      ∃ url path file, c = .clone url path ∧ (file = "one" ∨ file = "two") ∧
        filesAfter twoRepositories c files = files.put (resolved path) (sampleCopy url file) ∧
        originAt bareOrigin (files.put (resolved path) (sampleCopy url file)) path = some url := by
  have hsame : (sampleGit c files).2 = files.root → filesAfter twoRepositories c files = files := by
    intro heq
    change { files with root := (sampleGit c files).2 } = files
    rw [heq]
  cases c with
  | opening _ | reset _ | clean _ | changes => exact .inl ⟨hsame rfl, by simp⟩
  | pull path =>
    refine .inl ⟨hsame ?_, by simp⟩
    simp only [sampleGit]
    split <;> rfl
  | clone url path =>
    by_cases hknown : url = "r:one" ∨ url = "r:two"
    case neg =>
      have hfails : sampleGit (.clone url path) files = (.error "no such repository", files.root) := by
        simp only [sampleGit, if_neg hknown]
      exact .inl ⟨hsame (by rw [hfails]), fun _ _ _ => by rw [hfails]; simp⟩
    by_cases horigin : originAt bareOrigin (files.put (resolved path)
        (sampleCopy url (if url = "r:one" then "one" else "two"))) path = some url
    case neg =>
      have hfails : sampleGit (.clone url path) files =
          (.error "could not create work tree", files.root) := by
        simp only [sampleGit, if_pos hknown, if_neg horigin]
      exact .inl ⟨hsame (by rw [hfails]), fun _ _ _ => by rw [hfails]; simp⟩
    refine .inr ⟨url, path, if url = "r:one" then "one" else "two", rfl, ?_, ?_, horigin⟩
    · split
      · exact .inl rfl
      · exact .inr rfl
    · change { files with root := (sampleGit (.clone url path) files).2 } = _
      simp only [sampleGit, if_pos hknown, if_pos horigin]
      rfl

/-- `sampleGit` is an instance: git may well keep to its working copies. -/
theorem keepsToCopy_sampleGit (base : String) (hname : isName name) :
    KeepsToCopy twoRepositories base name := by
  intro c files hc
  rcases sampleGit_cases c files with ⟨hsame, -⟩ | ⟨url, path, file, rfl, hfile, hfiles, -⟩
  · rw [hsame]
    exact refl_of (Advances base copies name) files
  · intro htidy
    have hpath : path = copyPath base name := Option.some.inj hc
    rw [hpath, resolved_of_spells (spells_copyPath htidy.spells hname)] at hfiles
    rw [hpath, hfiles]
    exact put_advances files hname (isTame_sampleCopy url hfile) htidy

theorem tidy_empty : Tidy "/w" copies (empty "/w") where
  spells := ⟨by decide +kernel, rfl, by decide +kernel⟩
  home := by
    have hhome : properComponents "/w" = ["w"] := by decide +kernel
    exact ⟨true, [], by rw [hhome]; rfl⟩
  tame n hn := by
    have hhome : properComponents "/w" = ["w"] := by decide +kernel
    rw [hhome] at hn
    cases hn
  base := rfl

end Repository

end CodeAtlas
