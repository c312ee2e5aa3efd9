import CodeAtlas.Proofs.Isolation
import CodeAtlas.Proofs.Visits

/-!
# What a survey discloses

A survey reads the files of a project. What it found is sent to the assistant, and so is the text of
every file in a language without an outline, if there is a helper to ask. It does not walk into
directories behind links, but it does read files behind links, wherever they are. So the same
working copy may be surveyed differently in different surroundings, and links are the only way for
that (`survey_discloses_links`): the survey is the same if every link that the walk comes to shows
the same in both, and two surveys with the same reports and the same questions leave no other
possibility. Links that stay inside the working copy always show the same.
-/

open List

namespace CodeAtlas

open CodeAtlas.Path

variable {path : String}

namespace Workspace

/-! ## Two trees with the same working copy -/

/-- What `resolve` finds at a path, and how many more links it might have followed. -/
def seen (w : Workspace) (path : String) : Option (Node × Nat) :=
  (w.resolve true path).toOption.map fun p => (p.node, p.linksLeft)

theorem seen_eq_some_iff {w : Workspace} {tree : Node} {links : Nat} :
    w.seen path = some (tree, links) ↔ ∃ top, w.resolve true path = .ok ⟨top, tree, links⟩ := by
  unfold seen
  cases w.resolve true path with
  | error e => simp [Except.toOption]
  | ok p =>
    obtain ⟨top, n, left⟩ := p
    simp [Except.toOption]

theorem find?_eq_seen (w : Workspace) (path : String) :
    w.find? path = (w.seen path).map Prod.fst := by
  unfold find? seen
  cases w.resolve true path <;> rfl

/-- At a place below a path, there is a link that a walk comes to (`reach?`). -/
def HasLink (w : Workspace) (path : String) (l : Location) : Prop :=
  l ≠ [] ∧ ∃ tree links target,
    w.seen path = some (tree, links) ∧ tree.reach? l = some (.link target)

/-- The way through a place below a path `stays` inside of what is at the path. -/
def StaysInside (w : Workspace) (path : String) (l : Location) : Prop :=
  ∃ tree links, w.seen path = some (tree, links) ∧ tree.stays links [] l = true

/-- A place below a path shows a survey the same in two working directories: in both it leads to a
directory, or in both it does not, has the same report, and the helper is asked the same about it. -/
structure SameThrough (helper : Option (Nat → Assistant.Helper)) (w₁ w₂ : Workspace)
    (path : String) (l : Location) : Prop where
  isDirectory : w₁.isDirectory (below path l) = w₂.isDirectory (below path l)
  report : ∀ index, (w₁.filesAt path)[index]? = some (below path l) →
    Survey.report w₁ (helper.map (· index)) (below path l) =
      Survey.report w₂ (helper.map (· index)) (below path l)
  questions : helper.isSome = true → w₁.isDirectory (below path l) = false →
    Survey.questions w₁ (below path l) = Survey.questions w₂ (below path l)

section Seen

variable {helper : Option (Nat → Assistant.Helper)} {w₁ w₂ : Workspace} {path : String}
  {l : Location} {es : List (String × Node)} {links : Nat}

theorem isDirectory_eq_of_seen (h : w₁.seen path = w₂.seen path) :
    w₁.isDirectory path = w₂.isDirectory path := by
  simp only [isDirectory, find?_eq_seen, h]

/-- Walks below a path find the same files, with the same reports, and the same questions to the
helper about each of them. -/
structure SameFiles (helper : Option (Nat → Assistant.Helper)) (w₁ w₂ : Workspace) (path : String) :
    Prop where
  files : w₁.filesAt path = w₂.filesAt path
  reports : ∀ index found, (w₁.filesAt path)[index]? = some found →
    Survey.report w₁ (helper.map (· index)) found = Survey.report w₂ (helper.map (· index)) found
  questions : helper.isSome = true → ∀ found ∈ w₁.filesAt path,
    Survey.questions w₁ found = Survey.questions w₂ found

/-- A survey learns the same of a path: whether it is a directory, the report, and the questions. -/
structure SameLearnt (w₁ w₂ : Workspace) (path : String) : Prop where
  isDirectory : w₁.isDirectory path = w₂.isDirectory path
  report : ∀ helper, Survey.report w₁ helper path = Survey.report w₂ helper path
  questions : Survey.questions w₁ path = Survey.questions w₂ path

/-- A way that `stays` inside shows the same. -/
theorem sameLearnt_of_stays (h : w₁.seen path = w₂.seen path)
    (hseen : w₁.seen path = some (.directory true es, links)) (hne : l ≠ [])
    (hl : ∀ name ∈ l, isName name) (hstays : (Node.directory true es).stays links [] l) :
    SameLearnt w₁ w₂ (below path l) := by
  obtain ⟨top₁, h₁⟩ := seen_eq_some_iff.mp hseen
  obtain ⟨top₂, h₂⟩ := seen_eq_some_iff.mp (h ▸ hseen)
  have hshows : ∀ {spelled : String},
      spelled = below path l ∨ spelled = normalForm (below path l) →
        w₁.shows spelled = w₂.shows spelled :=
    shows_below h₁ h₂ hne hl hstays
  have hread := readFile_eq_of_shows (hshows (.inl rfl))
  exact ⟨isDirectory_eq_of_shows (hshows (.inl rfl)),
    fun helper => Survey.report_congr_readFile helper hread
      (readFile_eq_of_shows (hshows (.inr rfl))),
    Survey.questions_congr_readFile hread⟩

variable (hnamed : ∀ tree, w₁.find? path = some tree → tree.all Node.isNamed = true)
include hnamed

theorem sameThrough_of_staysInside (h : w₁.seen path = w₂.seen path) (hlink : w₁.HasLink path l)
    (hstays : w₁.StaysInside path l) : SameThrough helper w₁ w₂ path l := by
  obtain ⟨hne, tree, links, target, hseen, hreach⟩ := hlink
  obtain ⟨tree', links', hseen', hstays⟩ := hstays
  rw [hseen] at hseen'
  cases hseen'
  have hnames := Node.isName_of_reach? (hnamed tree (by rw [find?_eq_seen, hseen]; rfl)) hreach
  obtain ⟨name, rest, rfl⟩ := exists_cons_of_ne_nil hne
  obtain ⟨es, c, rfl, -, -⟩ := Node.reach?_cons.mp hreach
  have hsame := sameLearnt_of_stays h hseen hne hnames hstays
  exact ⟨hsame.isDirectory, fun _ _ => hsame.report _, fun _ _ => hsame.questions⟩

/-- Where all links show the same (`SameThrough`), so do all files that a walk finds. -/
theorem sameFiles_of_seen (h : w₁.seen path = w₂.seen path)
    (hlinks : ∀ l, w₁.HasLink path l → SameThrough helper w₁ w₂ path l) :
    SameFiles helper w₁ w₂ path := by
  have hfind₂ : w₂.find? path = w₁.find? path := by rw [find?_eq_seen, ← h, ← find?_eq_seen]
  cases hfind : w₁.find? path with
  | none =>
    have hnothing : w₁.filesAt path = [] := by rw [filesAt, hfind]
    have hnothing' : w₂.filesAt path = [] := by rw [filesAt, hfind₂, hfind]
    exact ⟨hnothing.trans hnothing'.symm, by simp [hnothing], by simp [hnothing]⟩
  | some tree =>
  obtain ⟨links, hseen⟩ : ∃ links, w₁.seen path = some (tree, links) := by
    have hseen := hfind
    rw [find?_eq_seen, Option.map_eq_some_iff] at hseen
    obtain ⟨⟨tree', links⟩, hseen, rfl⟩ := hseen
    exact ⟨links, hseen⟩
  have hnamed' := hnamed tree hfind
  have hlinks' : ∀ l target, l ≠ [] → tree.reach? l = some (.link target) →
      SameThrough helper w₁ w₂ path l :=
    fun l target hne hl => hlinks l ⟨hne, tree, links, target, hseen, hl⟩
  have hfiles : w₁.filesAt path = w₁.filesBelow path tree := by rw [filesAt, hfind]
  have hfiles₂ : w₂.filesAt path = w₂.filesBelow path tree := by rw [filesAt, hfind₂, hfind]
  -- a file that is found shows the same as such, and a link by what was assumed of links
  have hfound : ∀ found ∈ w₁.filesAt path, SameLearnt w₁ w₂ found ∨
      ∃ l, found = below path l ∧ SameThrough helper w₁ w₂ path l ∧
        w₁.isDirectory found = false := by
    intro found hmem
    rw [hfiles] at hmem
    obtain ⟨l, hne, hvisits, rfl⟩ := (mem_filesBelow hnamed').mp hmem
    rcases hvisits with ⟨bytes, hfile⟩ | ⟨⟨target, hlink⟩, hdirectory⟩
    · have hnames := Node.isName_of_reach? hnamed' hfile
      obtain ⟨name, rest, rfl⟩ := exists_cons_of_ne_nil hne
      obtain ⟨es, c, rfl, -, -⟩ := Node.reach?_cons.mp hfile
      have hstays := Node.stays_of_reach? (Node.at?_nil _) hfile rfl hnames links
      exact .inl (sameLearnt_of_stays h hseen hne hnames hstays)
    · exact .inr ⟨l, rfl, hlinks' l target hne hlink, hdirectory⟩
  refine ⟨?_, fun index found hindex => ?_, fun hhelper found hmem => ?_⟩
  · rw [hfiles, hfiles₂]
    exact filesBelow_congr hnamed' fun l target hne hl => (hlinks' l target hne hl).isDirectory
  · rcases hfound found (mem_of_getElem? hindex) with hsame | ⟨l, rfl, hsame, -⟩
    · exact hsame.report _
    · exact hsame.report index hindex
  · rcases hfound found hmem with hsame | ⟨l, rfl, hsame, hdirectory⟩
    · exact hsame.questions
    · exact hsame.questions hhelper hdirectory

/-- Conversely, where the walks find the `SameFiles`, all links show the same. -/
theorem SameFiles.sameThrough (hfiles : SameFiles helper w₁ w₂ path)
    (h : w₁.seen path = w₂.seen path) (hlink : w₁.HasLink path l) :
    SameThrough helper w₁ w₂ path l := by
  obtain ⟨hne, tree, links, target, hseen, hreach⟩ := hlink
  have hfind₁ : w₁.find? path = some tree := by rw [find?_eq_seen, hseen]; rfl
  have hfind₂ : w₂.find? path = some tree := by rw [find?_eq_seen, ← h, hseen]; rfl
  have hmem₁ := mem_filesAt_of_link hfind₁ (hnamed tree hfind₁) hne hreach
  have hmem₂ := mem_filesAt_of_link hfind₂ (hnamed tree hfind₁) hne hreach
  refine ⟨?_, fun index hindex => hfiles.reports index _ hindex,
    fun hhelper hdirectory => hfiles.questions hhelper _ (hmem₁.mpr hdirectory)⟩
  rw [Bool.eq_iff_iff, ← not_iff_not, Bool.not_eq_true, Bool.not_eq_true, ← hmem₁, ← hmem₂,
    hfiles.files]

end Seen

end Workspace

/-! ## Reports -/

theorem Survey.file_of_report {w : Workspace} {helper : Option Assistant.Helper} {r : Report}
    (h : report w helper path = .ok r) : r.file = path := by
  cases hread : w.readFile path with
  | ok bytes =>
    rcases report_cases helper hread with ⟨-, finding, hok⟩ | ⟨-, why, herror⟩
    · rw [hok] at h
      cases h
      rfl
    · rw [herror] at h
      cases h
  | error cause =>
    -- without the file, there is a report in one language alone
    have htext : readText w path = .error cause := by
      unfold readText
      rw [hread]
      rfl
    unfold report at h
    cases hlanguage : Language.detect? path with
    | none =>
      simp only [hlanguage, inOther, htext] at h
      cases h
    | some language =>
      rw [hlanguage] at h
      cases language with
      | typeScript =>
        cases h
        rfl
      | python =>
        simp only [inLanguage, python, hread] at h
        cases h
      | _ =>
        simp only [inLanguage, plain, htext] at h
        cases h

namespace Repository

section Reports

variable {α : Type} {make make₁ make₂ : α → Except Refusal Report} {files : List α} {file : α}
  {reports : List Report}

theorem reportsOn_cons_eq_ok {rest : List α} :
    reportsOn make (file :: rest) = (reports, none) ↔
      ∃ r more, make file = .ok r ∧ reportsOn make rest = (more, none) ∧ reports = r :: more := by
  rw [reportsOn]
  cases make file with
  | error why => simp
  | ok r =>
    obtain ⟨more, why⟩ := reportsOn make rest
    cases why <;> simp [eq_comm]

/-- The reports of `reportsOn` name their files, if none was refused. -/
theorem map_file_reportsOn (name : α → String) (hfile : ∀ a r, make a = .ok r → r.file = name a)
    (h : reportsOn make files = (reports, none)) : reports.map Report.file = files.map name := by
  induction files generalizing reports with
  | nil =>
    cases h
    rfl
  | cons file rest ih =>
    obtain ⟨r, more, hr, hmore, rfl⟩ := reportsOn_cons_eq_ok.mp h
    rw [map_cons, map_cons, hfile file r hr, ih hmore]

theorem eq_of_reportsOn_eq (h₁ : reportsOn make₁ files = (reports, none))
    (h₂ : reportsOn make₂ files = (reports, none)) :
    ∀ file ∈ files, ∃ r, make₁ file = .ok r ∧ make₂ file = .ok r := by
  induction files generalizing reports with
  | nil => simp
  | cons file rest ih =>
    obtain ⟨r, more, hr₁, hmore₁, rfl⟩ := reportsOn_cons_eq_ok.mp h₁
    obtain ⟨r', more', hr₂, hmore₂, heq⟩ := reportsOn_cons_eq_ok.mp h₂
    cases heq
    intro f hf
    rcases mem_cons.mp hf with rfl | hf
    · exact ⟨r, hr₁, hr₂⟩
    · exact ih hmore₁ hmore₂ f hf

end Reports

/-! ## Questions -/

open Act Workspace Survey

section AsksNothing

variable {α β : Type}

/-- An act that sends no question to the assistant. -/
def AsksNothing (p : Act α) : Prop :=
  ∀ s d, (p s d).2.record.questions = d.record.questions

theorem AsksNothing.bind {p : Act α} {f : α → Act β} (hp : AsksNothing p)
    (hf : ∀ a, AsksNothing (f a)) : AsksNothing (p >>= f) := by
  intro s d
  rcases bind_cases p f s d with ⟨e, -, hout⟩ | ⟨a, -, hout⟩
  · rw [hout]
    exact hp s d
  · rw [hout]
    exact (hf a s _).trans (hp s d)

theorem print_asksNothing (line : String) : AsksNothing (print line) :=
  fun _ _ => rfl

theorem execute_asksNothing (lines : List (List Char)) : AsksNothing (execute lines) := by
  induction lines with
  | nil => exact fun _ _ => rfl
  | cons line rest ih => exact AsksNothing.bind (fun _ _ => rfl) fun _ => ih

theorem discard_asksNothing (name : String) (project : Project) :
    AsksNothing (discard name project) := by
  intro s d
  unfold discard
  simp only [print, note, change_bind, desk_bind]
  obtain ⟨files, why⟩ := d.files.removeTree project.path
  cases why <;> rfl

theorem carryOut_asksNothing (name : String) (text : List Char) :
    AsksNothing (carryOut name text) := by
  refine AsksNothing.bind (execute_asksNothing _) fun _ => ?_
  refine AsksNothing.bind (fun _ _ => rfl) fun d => ?_
  cases d.projects.get? name with
  | none => exact fun _ _ => rfl
  | some project => exact AsksNothing.bind (discard_asksNothing name project) fun _ _ _ => rfl

end AsksNothing

/-- What `survey` asks is what `surveyQuestions` says. -/
theorem questions_survey (name : String) (s : Services) (d : Desk) :
    (survey name s d).2.record.questions =
      d.record.questions ++ surveyQuestions s.helper d.files d.projects name := by
  obtain ⟨printed, hsurvey⟩ := survey_eq name s d
  rw [hsurvey]

/-- `intoGraph` asks what the survey asks, and then about the result of the survey. -/
theorem questions_intoGraph (name : String) (s : Services) (d : Desk) :
    (intoGraph name s d).2.record.questions = d.record.questions ++
      (surveyQuestions s.helper d.files d.projects name ++
        (surveyed s.helper d.files d.projects name).toOption.toList.map (question name)) := by
  obtain ⟨printed, hsurvey⟩ := survey_eq name s d
  rw [intoGraph_eq, bind_apply, hsurvey, ← append_assoc]
  cases surveyed s.helper d.files d.projects name with
  | error e => exact (append_nil _).symm
  | ok reports =>
    simp only
    rw [bind_apply, ask_apply]
    cases s.assistant with
    | failure kind message => rfl
    | reply text =>
      cases text with
      | none => rfl
      | some text =>
        exact AsksNothing.bind (print_asksNothing _) (fun _ => carryOut_asksNothing _ _) s _

/-- `questions` about a file with a report are one or none, as its path tells. -/
theorem length_questions {w : Workspace} {helper : Option Assistant.Helper} {r : Report}
    (h : report w helper path = .ok r) :
    (questions w path).length = if (Language.detect? path).isSome then 0 else 1 := by
  unfold report at h
  unfold questions
  cases hlanguage : Language.detect? path with
  | some language => rfl
  | none =>
    rw [hlanguage] at h
    cases htext : readText w path with
    | ok code => rfl
    | error e =>
      simp only [inOther, htext] at h
      cases h

theorem eq_of_flatMap_eq {α β : Type} {f g : α → List β} {l : List α}
    (h : l.flatMap f = l.flatMap g) (hlength : ∀ a ∈ l, (f a).length = (g a).length) :
    ∀ a ∈ l, f a = g a := by
  induction l with
  | nil => simp
  | cons a rest ih =>
    rw [flatMap_cons, flatMap_cons] at h
    obtain ⟨hfirst, hrest⟩ := append_inj h (hlength a mem_cons_self)
    intro b hb
    rcases mem_cons.mp hb with rfl | hb
    · exact hfirst
    · exact ih hrest (fun c hc => hlength c (mem_cons_of_mem _ hc)) b hb

/-! ## Surveys of two trees -/

section Surveys

variable {helper : Option (Nat → Assistant.Helper)} {files files₁ files₂ : Workspace}
  {projects projects₁ projects₂ : Projects} {name : String} {reports : List Report}

/-- Where walks find the `SameFiles`, `surveyed` is the same, and `surveyQuestions` are. -/
theorem surveyed_congr (h₁ : (projects₁.get? name).map Project.path = some path)
    (h₂ : (projects₂.get? name).map Project.path = some path)
    (hdirectory : files₁.isDirectory path = files₂.isDirectory path)
    (hfiles : SameFiles helper files₁ files₂ path) :
    surveyed helper files₁ projects₁ name = surveyed helper files₂ projects₂ name ∧
      surveyQuestions helper files₁ projects₁ name =
        surveyQuestions helper files₂ projects₂ name := by
  obtain ⟨project₁, hproject₁, hpath₁⟩ := Option.map_eq_some_iff.mp h₁
  obtain ⟨project₂, hproject₂, hpath₂⟩ := Option.map_eq_some_iff.mp h₂
  have hreportsAt : reportsAt files₁ helper path = reportsAt files₂ helper path := by
    unfold reportsAt
    rw [← hfiles.files]
    refine reportsOn_congr fun file hfile => ?_
    exact hfiles.reports file.2 file.1 (mk_mem_zipIdx_iff_getElem?.mp hfile)
  constructor
  · unfold surveyed
    simp only [hproject₁, hproject₂, hpath₁, hpath₂, hdirectory, hreportsAt]
  · unfold surveyQuestions
    simp only [hproject₁, hproject₂, hpath₁, hpath₂, hdirectory, hreportsAt]
    cases helper with
    | none => simp
    | some _ =>
      have hasked : ∀ count,
          questionsAt files₁ path count = questionsAt files₂ path count := by
        intro count
        unfold questionsAt
        rw [← hfiles.files]
        exact flatMap_congr fun found hfound =>
          hfiles.questions rfl found (mem_of_mem_take hfound)
      rw [hasked]

/-- The reports of `reportsAt` name the files of the walk, if none was refused. -/
theorem map_file_reportsAt (h : reportsAt files helper path = (reports, none)) :
    reports.map Report.file = files.filesAt path := by
  rw [map_file_reportsOn Prod.fst (fun _ _ => file_of_report) h, zipIdx_map_fst]

/-- After a survey with a result, `surveyQuestions` are about all its files. -/
theorem surveyQuestions_of_ok (h : (projects.get? name).map Project.path = some path)
    (hok : surveyed helper files projects name = .ok reports) (hhelper : helper.isSome) :
    surveyQuestions helper files projects name =
      (files.filesAt path).flatMap (questions files) := by
  obtain ⟨hdirectory, hreports⟩ := (surveyed_eq_ok_iff h).mp hok
  obtain ⟨project, hproject, rfl⟩ := Option.map_eq_some_iff.mp h
  have hlength : reports.length = (files.filesAt project.path).length := by
    rw [← map_file_reportsAt hreports, length_map]
  unfold surveyQuestions
  simp only [hproject, hdirectory, hhelper, Bool.and_self, if_true, hreports, questionsAt, hlength,
    take_length]

end Surveys

/-- **A survey discloses what links show, and nothing else from outside.** Let the same be `seen` at
the path of a project in two file systems, whatever is around it. If every link there stays inside
or shows the same in both, `survey` has the same result, and `survey` as well as `intoGraph` send
the same questions to the assistant. Conversely, where two surveys have the same reports and asked
the same, every link shows the same in both. -/
theorem survey_discloses_links {d₁ d₂ : Desk} {name path : String} {s₁ s₂ : Services}
    (h₁ : (d₁.projects.get? name).map Project.path = some path)
    (h₂ : (d₂.projects.get? name).map Project.path = some path)
    (hsame : d₁.files.seen path = d₂.files.seen path)
    (hnamed : ∀ tree, d₁.files.find? path = some tree → tree.all Node.isNamed = true)
    (hhelper : s₁.helper = s₂.helper) :
    ((∀ l, d₁.files.HasLink path l → d₁.files.StaysInside path l ∨
        SameThrough s₁.helper d₁.files d₂.files path l) →
      (survey name s₁ d₁).1 = (survey name s₂ d₂).1 ∧
        (∃ asked, (survey name s₁ d₁).2.record.questions = d₁.record.questions ++ asked ∧
          (survey name s₂ d₂).2.record.questions = d₂.record.questions ++ asked) ∧
        ∃ asked, (intoGraph name s₁ d₁).2.record.questions = d₁.record.questions ++ asked ∧
          (intoGraph name s₂ d₂).2.record.questions = d₂.record.questions ++ asked) ∧
    ∀ reports asked,
      (survey name s₁ d₁).1 = .ok reports → (survey name s₂ d₂).1 = .ok reports →
      (survey name s₁ d₁).2.record.questions = d₁.record.questions ++ asked →
      (survey name s₂ d₂).2.record.questions = d₂.record.questions ++ asked →
      ∀ l, d₁.files.HasLink path l →
        SameThrough s₁.helper d₁.files d₂.files path l := by
  simp only [survey_fst, questions_survey, questions_intoGraph, append_cancel_left_eq]
  rw [← hhelper]
  constructor
  · intro hlinks
    have hthrough : ∀ l, d₁.files.HasLink path l →
        SameThrough s₁.helper d₁.files d₂.files path l := by
      intro l hlink
      rcases hlinks l hlink with hstays | hthrough
      · exact sameThrough_of_staysInside hnamed hsame hlink hstays
      · exact hthrough
    obtain ⟨hsurveyed, hasked⟩ := surveyed_congr h₁ h₂ (isDirectory_eq_of_seen hsame)
      (sameFiles_of_seen hnamed hsame hthrough)
    rw [hsurveyed, hasked]
    exact ⟨rfl, ⟨_, rfl, rfl⟩, _, rfl, rfl⟩
  · intro reports asked hok₁ hok₂ hasked₁ hasked₂ l hlink
    obtain ⟨-, hreports₁⟩ := (surveyed_eq_ok_iff h₁).mp hok₁
    obtain ⟨-, hreports₂⟩ := (surveyed_eq_ok_iff h₂).mp hok₂
    -- reports name their files, so the same reports are about the same files
    have hfiles : d₁.files.filesAt path = d₂.files.filesAt path := by
      rw [← map_file_reportsAt hreports₁, ← map_file_reportsAt hreports₂]
    rw [reportsAt, ← hfiles] at hreports₂
    have hmade := eq_of_reportsOn_eq hreports₁ hreports₂
    refine SameFiles.sameThrough hnamed ⟨hfiles, fun index found hindex => ?_,
      fun hsome => ?_⟩ hsame hlink
    · obtain ⟨r, hr₁, hr₂⟩ := hmade (found, index) (mk_mem_zipIdx_iff_getElem?.mpr hindex)
      exact hr₁.trans hr₂.symm
    · -- as many questions are asked about each file in both
      have hall : (d₁.files.filesAt path).flatMap (questions d₁.files) =
          (d₁.files.filesAt path).flatMap (questions d₂.files) := by
        rw [← surveyQuestions_of_ok h₁ hok₁ hsome, hasked₁, ← hasked₂,
          surveyQuestions_of_ok h₂ hok₂ hsome, hfiles]
      refine eq_of_flatMap_eq hall fun found hfound => ?_
      obtain ⟨index, hindex⟩ := mem_iff_getElem?.mp hfound
      obtain ⟨r, hr₁, hr₂⟩ := hmade (found, index) (mk_mem_zipIdx_iff_getElem?.mpr hindex)
      rw [length_questions hr₁, length_questions hr₂]

/-- A desk with a working copy, and a file beside it. -/
def besideCopy (es : List (String × Node)) (text : String) : Desk :=
  ⟨⟨"/", .directory true [("p", .directory true es),
    ("secret.rb", .file (text.toList.flatMap String.utf8EncodeChar))]⟩,
    [("p", ⟨"p", none⟩)], .empty⟩

theorem start_besideCopy (es : List (String × Node)) (text path : String) :
    start (besideCopy es text).files.home path = [] := by
  have hhome : properComponents "/" = [] := by decide +kernel
  change start (properComponents "/") path = []
  rw [hhome, start, ite_self]

theorem resolve_besideCopy (es : List (String × Node)) (text : String) :
    (besideCopy es text).files.resolve true "p" = .ok ⟨["p"], .directory true es, linkLimit⟩ := by
  have hcomponents : components "p" = ["p"] := by decide +kernel
  refine resolve_eq_ok_iff.mpr ⟨by decide, by decide, by decide, ?_⟩
  rw [start_besideCopy, hcomponents]
  rfl

theorem path_besideCopy (es : List (String × Node)) (text : String) :
    ((besideCopy es text).projects.get? "p").map Project.path = some "p" := rfl

theorem seen_besideCopy (es : List (String × Node)) (text : String) :
    (besideCopy es text).files.seen "p" = some (.directory true es, linkLimit) :=
  seen_eq_some_iff.mpr ⟨_, resolve_besideCopy es text⟩

/-- A working copy with a link from one of its directories to a file above. -/
def copyWithLink : List (String × Node) :=
  [("a.rb", .file ("class A\nend\n".toList.flatMap String.utf8EncodeChar)),
    ("lib", .directory true [("b.rb", .link "../a.rb")])]

theorem eq_of_link_copyWithLink {l : Location} {target : String}
    (h : (Node.directory true copyWithLink).reach? l = some (.link target)) :
    l = ["lib", "b.rb"] := by
  rcases l with _ | ⟨a, _ | ⟨b, _ | ⟨c, l⟩⟩⟩ <;>
    simp only [copyWithLink, Node.reach?, lookup_cons, lookup_nil] at h <;> grind

/-- The link of `copyWithLink` stays inside, so what is beside makes no difference. -/
theorem survey_discloses_links_inside :
    (survey "p" twoRepositories (besideCopy copyWithLink "class One\nend\n")).1 =
      (survey "p" twoRepositories (besideCopy copyWithLink "class Two\nend\n")).1 := by
  have hfind : ∀ tree, (besideCopy copyWithLink "class One\nend\n").files.find? "p" = some tree →
      tree.all Node.isNamed = true := by
    intro tree htree
    rw [find?_eq_seen, seen_besideCopy] at htree
    cases htree
    decide +kernel
  have hresult := survey_discloses_links (path_besideCopy _ _) (path_besideCopy _ _)
    ((seen_besideCopy copyWithLink "class One\nend\n").trans
      (seen_besideCopy copyWithLink "class Two\nend\n").symm) hfind (rfl : twoRepositories.helper = _)
  refine (hresult.1 fun l hlink => .inl ?_).1
  obtain ⟨-, tree, links, target, hseen, hreach⟩ := hlink
  rw [seen_besideCopy] at hseen
  cases hseen
  rw [eq_of_link_copyWithLink hreach]
  exact ⟨_, _, seen_besideCopy _ _, by decide +kernel⟩

/-- A working copy whose only file is a link to the file beside it. -/
def copyOfLink : List (String × Node) :=
  [("a.rb", .link "../secret.rb")]

theorem resolve_copyOfLink (text : String) :
    (besideCopy copyOfLink text).files.resolve true "p/a.rb" =
      .ok ⟨["secret.rb"], .file (text.toList.flatMap String.utf8EncodeChar), 39⟩ := by
  have hcomponents : components "p/a.rb" = ["p", "a.rb"] := by decide +kernel
  have htarget : components "../secret.rb" = ["..", "secret.rb"] := by decide +kernel
  have hway : Leads (besideCopy copyOfLink text).files true (39 + 1) [] ["p", "a.rb"]
      ⟨["secret.rb"], .file (text.toList.flatMap String.utf8EncodeChar), 39⟩ := by
    apply Leads.down rfl rfl (by decide) (by decide) rfl rfl
    apply Leads.follow rfl rfl (by decide) (by decide) rfl rfl (by decide)
    rw [htarget]
    apply Leads.up rfl
    exact Leads.down rfl rfl (by decide) (by decide) rfl rfl (.here rfl)
  refine resolve_eq_ok_iff.mpr ⟨by decide, by decide, by decide, ?_⟩
  rw [start_besideCopy, hcomponents]
  exact hway.resolveFrom

theorem filesAt_copyOfLink (text : String) :
    (besideCopy copyOfLink text).files.filesAt "p" = ["p/a.rb"] := by
  have hdirectory : (besideCopy copyOfLink text).files.isDirectory "p/a.rb" = false := by
    simp only [Workspace.isDirectory, Workspace.find?, resolve_copyOfLink]
    rfl
  have hjoin : join "p" "a.rb" = "p/a.rb" := by decide +kernel
  have hfiles : (besideCopy copyOfLink text).files.filesAt "p" =
      (besideCopy copyOfLink text).files.filesBelow "p" (.directory true copyOfLink) := by
    simp only [filesAt, find?_eq_seen, seen_besideCopy, Option.map_some]
  rw [hfiles]
  generalize (besideCopy copyOfLink text).files = w at hdirectory ⊢
  rw [filesBelow_directory]
  simp only [copyOfLink, filterMap_cons, filterMap_nil,
    flatMap_cons, flatMap_nil, foundAt, hjoin, hdirectory, Bool.false_eq_true, if_false]
  rfl

theorem report_copyOfLink (text : String) :
    report (besideCopy copyOfLink text).files none "p/a.rb" =
      .ok ⟨"p/a.rb", some "ruby", .ruby (Ruby.outline (Text.unifyNewlines
        (Text.Utf8.decodeLenient (text.toList.flatMap String.utf8EncodeChar))))⟩ := by
  have hlanguage : Language.detect? "p/a.rb" = some .ruby := by decide +kernel
  have hread : (besideCopy copyOfLink text).files.readFile "p/a.rb" =
      .ok (text.toList.flatMap String.utf8EncodeChar) := by
    simp only [readFile, resolve_copyOfLink]
    rfl
  unfold report
  rw [hlanguage]
  show plain _ "p/a.rb" .ruby _ = _
  unfold plain readText
  rw [hread]
  rfl

/-- The survey of `copyOfLink` is the report on the file beside it. -/
theorem survey_copyOfLink (text : String) :
    ∃ report, (survey "p" twoRepositories (besideCopy copyOfLink text)).1 = .ok [report] ∧
      report.finding = .ruby (Ruby.outline (Text.unifyNewlines
        (Text.Utf8.decodeLenient (text.toList.flatMap String.utf8EncodeChar)))) := by
  have hdirectory : (besideCopy copyOfLink text).files.isDirectory "p" := by
    simp only [isDirectory, find?_eq_seen, seen_besideCopy]
    rfl
  refine ⟨⟨"p/a.rb", some "ruby", .ruby _⟩, ?_, rfl⟩
  rw [survey_fst, surveyed_eq_ok_iff (path_besideCopy _ _)]
  refine ⟨hdirectory, ?_⟩
  change reportsAt _ none "p" = _
  rw [reportsAt_none, filesAt_copyOfLink]
  exact reportsOn_cons_eq_ok.mpr ⟨_, [], report_copyOfLink text, rfl, rfl⟩

/-- The link of `copyOfLink` leads out, and what is beside the working copy is reported. -/
theorem survey_shows_outside :
    (besideCopy copyOfLink "class One\nend\n").files.seen "p" =
        (besideCopy copyOfLink "class Two\nend\n").files.seen "p" ∧
      (survey "p" twoRepositories (besideCopy copyOfLink "class One\nend\n")).1 ≠
        (survey "p" twoRepositories (besideCopy copyOfLink "class Two\nend\n")).1 := by
  refine ⟨(seen_besideCopy _ _).trans (seen_besideCopy _ _).symm, fun hsame => ?_⟩
  obtain ⟨report₁, hok₁, hfinding₁⟩ := survey_copyOfLink "class One\nend\n"
  obtain ⟨report₂, hok₂, hfinding₂⟩ := survey_copyOfLink "class Two\nend\n"
  rw [hok₁, hok₂] at hsame
  cases hsame
  rw [hfinding₁] at hfinding₂
  have hclasses := congrArg Ruby.Outline.classes (Finding.ruby.inj hfinding₂)
  revert hclasses
  decide +kernel

end Repository

end CodeAtlas
