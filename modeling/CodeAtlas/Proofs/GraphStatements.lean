import CodeAtlas.Proofs.Act
import CodeAtlas.Proofs.Projects

/-!
# From a project to the graph

Turning a project into graph statements surveys it, asks the assistant, executes line by line what
the assistant wrote, and discards the project last. What can come of that is said once
(`intoGraph_course`). So whatever fails, fails before anything that lasts is touched, and the graph
has got the first of the statements and no other (`intoGraph_all_or_nothing`).
-/

open List

namespace CodeAtlas

namespace Repository

open Act Text

/-! ## Surveys -/

/-- The outcome of `survey`, which depends on files, projects and the helper alone. -/
def surveyed (helper : Option (Nat → Assistant.Helper)) (files : Workspace)
    (projects : Projects) (name : String) : Except Failure (List Report) :=
  match projects.get? name with
  | none => .error (.http 404 "Project not found in UserRepos")
  | some project =>
    if files.isDirectory project.path then
      match reportsAt files helper project.path with
      | (_, some why) => .error (.refusal why)
      | (reports, none) => .ok reports
    else .error (.http 404 "Repository directory not found")

theorem surveyed_eq_ok_iff {helper : Option (Nat → Assistant.Helper)} {files : Workspace}
    {projects : Projects} {name path : String} {reports : List Report}
    (h : (projects.get? name).map Project.path = some path) :
    surveyed helper files projects name = .ok reports ↔
      files.isDirectory path ∧ reportsAt files helper path = (reports, none) := by
  obtain ⟨project, hproject, rfl⟩ := Option.map_eq_some_iff.mp h
  unfold surveyed
  rw [hproject]
  simp only
  cases files.isDirectory project.path with
  | false => simp
  | true =>
    obtain ⟨made, why⟩ := reportsAt files helper project.path
    cases why <;> simp

/-- What the helper is asked in a `survey`, if there is one. -/
def surveyQuestions (helper : Option (Nat → Assistant.Helper)) (files : Workspace)
    (projects : Projects) (name : String) : List Json :=
  match projects.get? name with
  | none => []
  | some project =>
    if files.isDirectory project.path && helper.isSome then
      questionsAt files project.path (reportsAt files helper project.path).1.length
    else []

/-- `survey` asks the helper and prints, and changes nothing else. -/
theorem survey_eq (name : String) (s : Services) (d : Desk) :
    ∃ printed, survey name s d = (surveyed s.helper d.files d.projects name,
      { d with record := { d.record with
          questions := d.record.questions ++ surveyQuestions s.helper d.files d.projects name
          printed := printed } }) := by
  unfold survey surveyed surveyQuestions
  rw [desk_bind]
  cases d.projects.get? name with
  | none => exact ⟨_, by rw [append_nil]; rfl⟩
  | some project =>
    simp only
    cases d.files.isDirectory project.path with
    | false => exact ⟨_, by simp only [Bool.false_and, Bool.false_eq_true, if_false, append_nil]; rfl⟩
    | true =>
      simp only [Bool.not_true, Bool.false_eq_true, if_false, if_true, Bool.true_and]
      -- the helper, if there is one, is asked before the end of the survey is printed
      change ∃ printed, (services >>= fun s => _) s d = _
      rw [services_bind]
      generalize reportsAt d.files s.helper project.path = found
      obtain ⟨reports, why⟩ := found
      cases s.helper with
      | none =>
        simp only [Option.isSome_none, Bool.false_eq_true, if_false, append_nil]
        cases why <;> exact ⟨_, rfl⟩
      | some helper => cases why <;> exact ⟨_, rfl⟩

theorem survey_fst (name : String) (s : Services) (d : Desk) :
    (survey name s d).1 = surveyed s.helper d.files d.projects name := by
  obtain ⟨printed, hsurvey⟩ := survey_eq name s d
  rw [hsurvey]

theorem survey_quiet (name : String) (s : Services) (d : Desk) : Quiet d (survey name s d).2 := by
  obtain ⟨printed, hsurvey⟩ := survey_eq name s d
  rw [hsurvey]
  exact ⟨rfl, rfl, rfl⟩

variable {name : String} {project : Project} {d : Desk}

theorem known_of_surveyed {helper : Option (Nat → Assistant.Helper)} {files : Workspace}
    {projects : Projects} {reports : List Report}
    (h : surveyed helper files projects name = .ok reports) :
    ∃ project, projects.get? name = some project := by
  unfold surveyed at h
  cases hproject : projects.get? name with
  | none => rw [hproject] at h; cases h
  | some project => exact ⟨project, rfl⟩

/-! ## Executing statements -/

theorem execute_quiet (lines : List (List Char)) (s : Services) (d : Desk) :
    Quiet d (execute lines s d).2 := by
  induction lines generalizing d with
  | nil => exact Quiet.refl d
  | cons line rest ih =>
    unfold execute
    exact Quiet.bind (lookup_quiet _ s) (fun _ d' => ih d') d

def statement (line : List Char) : GraphQuery :=
  ⟨String.ofList line, []⟩

/-- The graph database accepts statements one after another, the first of them after so many
requests. -/
def Accepts (s : Services) (before : Nat) (statements : List GraphQuery) : Prop :=
  ∀ i q, statements[i]? = some q → ∃ rows, s.graph (before + i) q = .ok rows

theorem accepts_nil (s : Services) (before : Nat) : Accepts s before [] := by
  intro i q hq
  simp at hq

theorem accepts_cons {s : Services} {before : Nat} {q : GraphQuery} {rest : List GraphQuery} :
    Accepts s before (q :: rest) ↔
      (∃ rows, s.graph before q = .ok rows) ∧ Accepts s (before + 1) rest := by
  constructor
  · intro h
    refine ⟨h 0 q rfl, fun i q' hq' => ?_⟩
    rw [Nat.add_assoc, Nat.add_comm 1 i]
    exact h (i + 1) q' hq'
  · rintro ⟨hfirst, hrest⟩ i q' hq'
    cases i with
    | zero =>
      cases hq'
      exact hfirst
    | succ i =>
      rw [Nat.add_comm i 1, ← Nat.add_assoc]
      exact hrest i q' hq'

/-- **The course of `execute`.** The graph database has got the first of the statements, in their
order; all of them exactly if it accepts them one after another. -/
theorem execute_course (lines : List (List Char)) (s : Services) (d : Desk) :
    ∃ executed, executed <+: lines.map statement ∧
      (execute lines s d).2.record.lookups = d.record.lookups ++ executed ∧
      (((∃ e, (execute lines s d).1 = .error e) ∧
          ¬ Accepts s d.record.lookups.length (lines.map statement)) ∨
        ((execute lines s d).1 = .ok () ∧ executed = lines.map statement ∧
          Accepts s d.record.lookups.length (lines.map statement))) := by
  induction lines generalizing d with
  | nil =>
    refine ⟨[], prefix_rfl, ?_, .inr ⟨rfl, rfl, accepts_nil s _⟩⟩
    simp [execute]
  | cons line rest ih =>
    have hstep : execute (line :: rest) = lookup (statement line) >>= fun _ => execute rest := rfl
    rw [map_cons, accepts_cons, hstep, bind_apply, lookup_apply]
    cases hanswer : s.graph d.record.lookups.length (statement line) with
    | error message =>
      -- the refused statement is the last that was tried
      refine ⟨[statement line], ?_, rfl, .inl ⟨⟨_, rfl⟩, ?_⟩⟩
      · exact prefix_append [statement line] _
      · rintro ⟨⟨rows, hrows⟩, -⟩
        cases hrows
    | ok rows =>
      obtain ⟨executed, hprefix, hlookups, hcourse⟩ := ih
        { d with record := { d.record with
            lookups := d.record.lookups ++ [statement line] } }
      simp only [length_append, length_singleton] at hcourse
      refine ⟨statement line :: executed, ?_, ?_, ?_⟩
      · exact (prefix_cons_inj _).mpr hprefix
      · change (execute rest s _).2.record.lookups = _
        rw [hlookups, append_assoc, singleton_append]
      · rcases hcourse with ⟨herror, hnot⟩ | ⟨hok, hall, haccepts⟩
        · exact .inl ⟨herror, fun h => hnot h.2⟩
        · exact .inr ⟨hok, by rw [hall], ⟨rows, rfl⟩, haccepts⟩

/-! ## The course of the whole call -/

theorem discard_eq (name : String) (project : Project) (s : Services) (d : Desk) :
    ∃ record, discard name project s d =
        (.ok (), ⟨(d.files.removeTree project.path).1, d.projects.erase name, record⟩) ∧
      record.commands = d.record.commands ∧ record.lookups = d.record.lookups := by
  unfold discard
  simp only [print, note, change_bind, desk_bind]
  obtain ⟨files, why⟩ := d.files.removeTree project.path
  cases why <;> exact ⟨_, rfl, rfl, rfl⟩

/-- The statements in a response: the lines of its text that are not empty, after white space was
removed from its ends. A response without a text has none. -/
def statementsIn : Assistant.Response → List GraphQuery
  | .reply (some text) =>
    (((trim text.toList).splitOn '\n').filter (· ≠ [])).map statement
  | _ => []

theorem statementsIn_reply (text : String) :
    statementsIn (.reply (some text)) = (statements (trim text.toList)).map statement := by
  have hempty : ∀ line : List Char, (!line.isEmpty) = decide (line ≠ []) := by
    intro line
    cases line <;> simp
  simp only [statementsIn, statements, splitAt_eq_splitOn, hempty]

/-- A desk after a project was turned into statements: the project is forgotten, and its working
copy removed as far as that was possible. -/
structure Discarded (name : String) (project : Project) (d d' : Desk) : Prop where
  known : d.projects.get? name = some project
  files : d'.files = (d.files.removeTree project.path).1
  projects : d'.projects = d.projects.erase name
  commands : d'.record.commands = d.record.commands

theorem Discarded.of_quiet {d₁ d' : Desk} (hquiet : Quiet d d₁) (h : Discarded name project d₁ d') :
    Discarded name project d d' where
  known := hquiet.projects ▸ h.known
  files := by rw [h.files, hquiet.files]
  projects := by rw [h.projects, hquiet.projects]
  commands := h.commands.trans hquiet.commands

/-- The end of `intoGraph`: a text is executed, and the project discarded. -/
def carryOut (name : String) (text : List Char) : Act String := do
  execute (statements text)
  match (← desk).projects.get? name with
  | none => fail (.access (.missing name))
  | some project =>
    discard name project
    return String.ofList text

theorem intoGraph_eq (name : String) : intoGraph name = survey name >>= fun reports =>
        ask (question name reports) >>= fun reply => match reply with
          | none => fail (.lacks Json.null.kindName "strip")
          | some text =>
            print (String.ofList (trim text.toList)) >>= fun _ =>
              carryOut name (trim text.toList) := rfl

/-- `carryOut` ends with the project discarded exactly if the graph database accepts all
statements. -/
theorem carryOut_course (text : List Char) (s : Services)
    (hproject : d.projects.get? name = some project) :
    ∃ executed, executed <+: (statements text).map statement ∧
      (carryOut name text s d).2.record.lookups = d.record.lookups ++ executed ∧
      (((∃ e, (carryOut name text s d).1 = .error e) ∧ Quiet d (carryOut name text s d).2 ∧
          ¬ Accepts s d.record.lookups.length ((statements text).map statement)) ∨
        ((carryOut name text s d).1 = .ok (String.ofList text) ∧
          Discarded name project d (carryOut name text s d).2 ∧
          executed = (statements text).map statement ∧
          Accepts s d.record.lookups.length ((statements text).map statement))) := by
  obtain ⟨executed, hprefix, hlookups, hcourse⟩ := execute_course (statements text) s d
  have hquiet := execute_quiet (statements text) s d
  refine ⟨executed, hprefix, ?_⟩
  unfold carryOut
  rcases bind_cases (execute (statements text)) _ s d with ⟨e, he, hout⟩ | ⟨_, hok, hout⟩
  · rw [hout]
    rcases hcourse with ⟨-, hnot⟩ | ⟨hok, -⟩
    · exact ⟨hlookups, .inl ⟨⟨e, rfl⟩, hquiet, hnot⟩⟩
    · rw [hok] at he
      cases he
  · rw [hout, desk_bind]
    rcases hcourse with ⟨⟨e, he⟩, -⟩ | ⟨-, hall, haccepts⟩
    · rw [he] at hok
      cases hok
    generalize (execute (statements text) s d).2 = d₁ at hlookups hquiet ⊢
    have hproject₁ : d₁.projects.get? name = some project := hquiet.projects ▸ hproject
    obtain ⟨record, hdiscard, hcommands, hkept⟩ := discard_eq name project s d₁
    rw [hproject₁]
    simp only
    rw [bind_of_ok hdiscard, pure_apply]
    have hdiscarded : Discarded name project d₁
        ⟨(d₁.files.removeTree project.path).1, d₁.projects.erase name, record⟩ :=
      ⟨hproject₁, rfl, rfl, hcommands⟩
    exact ⟨hkept.trans hlookups, .inr ⟨rfl, hdiscarded.of_quiet hquiet, hall, haccepts⟩⟩

/-- What has to go well for a project to be turned into statements: it can be surveyed, the
assistant replies with a text, and the graph database accepts all statements in it. -/
def GoesWell (name : String) (s : Services) (d : Desk) (text : String) : Prop :=
  (∃ reports, surveyed s.helper d.files d.projects name = .ok reports) ∧
    s.assistant = .reply (some text) ∧ Accepts s d.record.lookups.length (statementsIn s.assistant)

/-- **The course of `intoGraph`.** It fails and nothing has changed that lasts, or all went well and
the project is discarded. -/
theorem intoGraph_course (name : String) (s : Services) (d : Desk) :
    ∃ executed, executed <+: statementsIn s.assistant ∧
      (intoGraph name s d).2.record.lookups = d.record.lookups ++ executed ∧
      (((∃ e, (intoGraph name s d).1 = .error e) ∧ Quiet d (intoGraph name s d).2 ∧
          ∀ text, ¬ GoesWell name s d text) ∨ ∃ text project,
          (intoGraph name s d).1 = .ok (String.ofList (trim text.toList)) ∧
          Discarded name project d (intoGraph name s d).2 ∧
          executed = statementsIn s.assistant ∧ GoesWell name s d text) := by
  rw [intoGraph_eq]
  have hsurvey := survey_quiet name s d
  have hlookups : (survey name s d).2.record.lookups = d.record.lookups := by
    obtain ⟨printed, heq⟩ := survey_eq name s d
    rw [heq]
  rcases bind_cases (survey name) _ s d with ⟨e, he, hout⟩ | ⟨reports, hreports, hout⟩
  · rw [hout]
    rw [survey_fst] at he
    refine ⟨[], nil_prefix, by simpa using hlookups, .inl ⟨⟨e, rfl⟩, hsurvey, ?_⟩⟩
    rintro text ⟨⟨reports, hreports⟩, -⟩
    rw [hreports] at he
    cases he
  rw [hout]
  rw [survey_fst] at hreports
  generalize (survey name s d).2 = d₁ at hsurvey hlookups ⊢
  rw [bind_apply, ask_apply]
  -- the assistant may fail, reply without a text, or reply with one
  unfold GoesWell
  cases hassistant : s.assistant with
  | failure kind message =>
    refine ⟨[], nil_prefix, by simpa using hlookups,
      .inl ⟨⟨_, rfl⟩, hsurvey.trans ⟨rfl, rfl, rfl⟩, ?_⟩⟩
    rintro text ⟨-, hreply, -⟩
    cases hreply
  | reply reply =>
    cases reply with
    | none =>
      refine ⟨[], nil_prefix, by simpa [fail] using hlookups,
        .inl ⟨⟨_, rfl⟩, hsurvey.trans ⟨rfl, rfl, rfl⟩, ?_⟩⟩
      rintro text ⟨-, hreply, -⟩
      cases hreply
    | some text =>
      simp only [print, note, change_bind]
      generalize hd₂ : ({ d₁ with record := _ } : Desk) = d₂
      have hquiet : Quiet d d₂ := by
        rw [← hd₂]
        exact hsurvey.trans ⟨rfl, rfl, rfl⟩
      have hlookups₂ : d₂.record.lookups = d.record.lookups := by
        rw [← hd₂]
        exact hlookups
      obtain ⟨project, hproject⟩ := known_of_surveyed hreports
      obtain ⟨executed, hprefix, hrun, hcourse⟩ :=
        carryOut_course (trim text.toList) s (hquiet.projects ▸ hproject)
      rw [hlookups₂, ← statementsIn_reply] at hcourse
      rw [← statementsIn_reply] at hprefix
      rw [hlookups₂] at hrun
      refine ⟨executed, hprefix, hrun, ?_⟩
      rcases hcourse with ⟨herror, hstays, hnot⟩ | ⟨hok, hdiscarded, hall, haccepts⟩
      · refine .inl ⟨herror, hquiet.trans hstays, ?_⟩
        rintro text' ⟨-, hreply, haccepts⟩
        exact hnot haccepts
      · exact .inr ⟨text, project, hok, hdiscarded.of_quiet hquiet, hall,
          ⟨reports, hreports⟩, rfl, haccepts⟩

/-- `intoGraph` is `Quiet`, or it has removed the working copy as far as it could and forgotten the
project. -/
theorem intoGraph_cases (name : String) (s : Services) (d : Desk) : Quiet d (intoGraph name s d).2 ∨
      ∃ project text, d.projects.get? name = some project ∧ (intoGraph name s d).1 = .ok text ∧
        (intoGraph name s d).2.files = (d.files.removeTree project.path).1 ∧
        (intoGraph name s d).2.projects = d.projects.erase name ∧
        (intoGraph name s d).2.record.commands = d.record.commands ∧
        d.files.isDirectory project.path = true := by
  obtain ⟨executed, -, -, hcourse⟩ := intoGraph_course name s d
  rcases hcourse with ⟨-, hquiet, -⟩ | ⟨text, project, hok, h, -, ⟨reports, hreports⟩, -⟩
  · exact .inl hquiet
  · have hpath : (d.projects.get? name).map Project.path = some project.path := by rw [h.known]; rfl
    exact .inr ⟨project, _, h.known, hok, h.files, h.projects, h.commands,
      ((surveyed_eq_ok_iff hpath).mp hreports).1⟩

/-! ## All or nothing -/

/-- **Turning a project into graph statements is all or nothing.** Whatever the state and the
services: the statements that were executed are the first of those in the assistant's reply. The
call is answered exactly if all goes well. If it fails, the memory and the files are what they were.
If it is answered, all statements were executed, the project is forgotten and every other kept, and
nothing is gone that was not at the project's path or below. -/
theorem intoGraph_all_or_nothing (name : String) (s : Services) (d : Desk) :
    ∃ executed,
      (intoGraph name s d).2.record.lookups = d.record.lookups ++ executed ∧
      executed <+: statementsIn s.assistant ∧
      (∀ answer, (intoGraph name s d).1 = .ok answer ↔
        ∃ text, GoesWell name s d text ∧ answer = String.ofList (trim text.toList)) ∧
      (∀ e, (intoGraph name s d).1 = .error e →
        (intoGraph name s d).2.projects = d.projects ∧ (intoGraph name s d).2.files = d.files) ∧
      (∀ answer, (intoGraph name s d).1 = .ok answer →
        executed = statementsIn s.assistant ∧
        (intoGraph name s d).2.projects.get? name = none ∧
        (∀ other, other ≠ name →
          (intoGraph name s d).2.projects.get? other = d.projects.get? other) ∧
        ∃ project, d.projects.get? name = some project ∧
          ∀ l, (d.files.root.at? l).isSome = true →
            (intoGraph name s d).2.files.root.at? l = none →
            ∃ place, d.files.resolve false project.path = .ok place ∧ place.location <+: l) := by
  obtain ⟨executed, hprefix, hlookups, hcourse⟩ := intoGraph_course name s d
  refine ⟨executed, hlookups, hprefix, ?_⟩
  rcases hcourse with ⟨⟨e, he⟩, hquiet, hnot⟩ | ⟨text, project, hok, hdiscarded, hall, hwell⟩
  · -- something failed: projects and files are as before
    refine ⟨fun answer => ?_, fun _ _ => ⟨hquiet.projects, hquiet.files⟩, fun answer hok => ?_⟩
    · constructor
      · intro hok
        rw [he] at hok
        cases hok
      · rintro ⟨text, hwell, -⟩
        exact absurd hwell (hnot text)
    · rw [he] at hok
      cases hok
  · refine ⟨fun answer => ?_, fun e he => ?_, fun answer _ => ⟨hall, ?_, fun other hother => ?_,
      project, hdiscarded.known, fun l hthere hgone => ?_⟩⟩
    · rw [hok]
      constructor
      · intro hanswer
        cases hanswer
        exact ⟨text, hwell, rfl⟩
      · rintro ⟨text', hwell', rfl⟩
        have hsame := hwell.2.1.symm.trans hwell'.2.1
        cases hsame
        rfl
    · rw [hok] at he
      cases he
    · rw [hdiscarded.projects, Projects.get?_erase_self]
    · rw [hdiscarded.projects, Projects.get?_erase_of_ne _ hother]
    · rw [hdiscarded.files] at hgone
      exact Workspace.location_of_removed hthere hgone

end Repository

end CodeAtlas
