import CodeAtlas.Proofs.GraphStatements

/-!
# What calls do

The calls of a client about a project: fetching it, surveying it, and turning it into graph
statements. What each can do to the files and the projects in memory, whatever the services answer,
is said once: by `survey_quiet` and `intoGraph_cases` before, and by `fetch_steps`, `fetch_files`
and `fetch_projects` here. A run is any list of calls, each with services of its own.
-/

open List

namespace CodeAtlas

/-- The path that a command is about; the names of changed files are asked of none. -/
def CopyCommand.path? : CopyCommand → Option String
  | .clone _ path | .opening path | .reset path | .clean path | .pull path => some path
  | .changes => none

namespace Repository

open Act Workspace CodeAtlas.Path

/-- The path at which `fetch` puts the working copy of a project. -/
def copyPath (base name : String) : String :=
  join (join base copies) name

/-! ## Fetching -/

section Files

variable {R : Workspace → Workspace → Prop} [IsPreorder Workspace R]
variable {path base : String} {s : Services} {r : CloneRequest} {d : Desk}

theorem path?_of_mem_commandsFor {files : Workspace} {url path : String} {c : CopyCommand}
    (h : c ∈ commandsFor files url path) : c.path? = some path := by
  unfold commandsFor at h
  split at h
  · simp only [mem_cons, not_mem_nil, or_false] at h
    rcases h with rfl | rfl | rfl | rfl <;> rfl
  · rw [mem_singleton.mp h]
    rfl

/-- What becomes of the commands of `gitAll`, up to the first that fails: how they end, the files
afterwards, and the commands that were given. -/
structure Carried where
  outcome : Except String Unit
  files : Workspace
  given : List CopyCommand

/-- What `gitAll` does, on files alone. -/
def carriedOut (s : Services) : List CopyCommand → Workspace → Carried
  | [], files => ⟨.ok (), files, []⟩
  | c :: rest, files =>
    match (s.git c files).1 with
    | .error message => ⟨.error message, filesAfter s c files, [c]⟩
    | .ok _ =>
      let later := carriedOut s rest (filesAfter s c files)
      { later with given := c :: later.given }

theorem gitAll_apply (cs : List CopyCommand) (s : Services) (d : Desk) : gitAll cs s d =
      ((carriedOut s cs d.files).outcome.mapError .service,
        { d with
          files := (carriedOut s cs d.files).files
          record := { d.record with
            commands := d.record.commands ++ (carriedOut s cs d.files).given } }) := by
  induction cs generalizing d with
  | nil => simp [gitAll, carriedOut, Except.mapError]
  | cons c rest ih =>
    rw [gitAll, bind_apply, git_apply, carriedOut]
    cases hgit : (s.git c d.files).1 with
    | error message => rfl
    | ok _ =>
      simp only [Except.mapError]
      rw [ih]
      simp only [append_assoc, singleton_append]
      rfl

/-- Every way in which `fetch` changes files is of a kind: making the directory of all working
copies, and what git does about the working copy. -/
structure ChangesFilesBy (R : Workspace → Workspace → Prop) (s : Services) (base path : String) :
    Prop where
  parent : ∀ w w', w.makeDirectories (join base copies) = .ok w' → R w w'
  git : ∀ c w, c.path? = some path → R w (filesAfter s c w)

theorem carriedOut_files (hfiles : ChangesFilesBy R s base path) {cs : List CopyCommand}
    (hcs : ∀ c ∈ cs, c.path? = some path) (files : Workspace) :
    R files (carriedOut s cs files).files := by
  induction cs generalizing files with
  | nil => exact refl_of R files
  | cons c rest ih =>
    have hstep := hfiles.git c files (hcs c mem_cons_self)
    rw [carriedOut]
    cases (s.git c files).1 with
    | error message => exact hstep
    | ok _ => exact trans_of R hstep (ih (fun c hc => hcs c (mem_cons_of_mem _ hc)) _)

/-- The middle of a `fetch`: the working copy is cloned or brought up to date. -/
def sync (url path : String) : Act Unit := do
  gitAll (commandsFor (← desk).files url path)

theorem sync_apply (url path : String) (s : Services) (d : Desk) : sync url path s d =
      ((carriedOut s (commandsFor d.files url path) d.files).outcome.mapError .service,
        { d with
          files := (carriedOut s (commandsFor d.files url path) d.files).files
          record := { d.record with
            commands := d.record.commands ++
              (carriedOut s (commandsFor d.files url path) d.files).given } }) :=
  gitAll_apply (commandsFor d.files url path) s d

/-- The query of a `fetch` for what was cloned from an address. -/
def CloneRequest.inquiry (r : CloneRequest) : Query :=
  ⟨"repos", [.select "*", .equal "repo_url" (.text r.url), .limit 1]⟩

def CloneRequest.insertion (r : CloneRequest) : Query :=
  ⟨"repos",
    [.insert (.object [("proj_name", .text r.name), ("repo_url", .text r.url),
      ("branch", .text r.branch), ("auth_token", .ofOption r.token)])]⟩

/-- The start of a `fetch`: the directory of all copies is made, and the database asked. -/
def prepare (r : CloneRequest) : Act Json := do
  let base := join (← desk).files.base copies
  makeDirectories base
  print ("[CloneAgent] Using basePath: " ++ base)
  query r.inquiry

theorem prepare_apply (r : CloneRequest) (s : Services) (d : Desk) : prepare r s d =
      match d.files.makeDirectories (join d.files.base copies) with
      | .error e => (.error (.file e), d)
      | .ok made =>
        query r.inquiry s
          (print ("[CloneAgent] Using basePath: " ++ join d.files.base copies) s
            { d with files := made }).2 := by
  unfold prepare
  rw [desk_bind, makeDirectories, bind_assoc, desk_bind]
  cases d.files.makeDirectories (join d.files.base copies) with
  | error _ | ok _ => rfl

theorem prepare_quiet
    (h : ∀ w w', w.makeDirectories (join d.files.base copies) = .ok w' → R w w')
    (s : Services) :
    ∃ files, R d.files files ∧ Quiet { d with files := files } (prepare r s d).2 := by
  rw [prepare_apply]
  cases hmade : d.files.makeDirectories (join d.files.base copies) with
  | error e => exact ⟨d.files, refl_of R d.files, Quiet.refl d⟩
  | ok made => exact ⟨made, h _ _ hmade, (print_quiet _ s _).trans (query_quiet _ s _)⟩

/-- The end of a `fetch`: the repository is stored, unless it is known, and its project
remembered. -/
def remember (r : CloneRequest) (path : String) (existing : Json) : Act String := do
  let isNew := (← access existing.count) == 0
  if isNew then
    let _ ← Database.insertClone (.text r.name) (.text r.url) (.text r.branch) (.ofOption r.token)
  else print "Repo already exists in Supabase, skipping insert."
  change fun d =>
    { d with projects := d.projects.set r.name ⟨path, some ⟨r.url, r.branch, r.token⟩⟩ }
  if isNew then
    print s!"[Memory] Saved {r.name} in user_repo_db"
    return "Project cloned & stored in supabase successfully"
  else return "Project pulled & already exists in Supabase"

/-- What `fetch` remembers of a request. -/
def CloneRequest.project (r : CloneRequest) (path : String) : Project :=
  ⟨path, some ⟨r.url, r.branch, r.token⟩⟩

/-- Everything that `remember` can come to. -/
inductive Remembered (r : CloneRequest) (path : String) (existing : Json) (s : Services) (d : Desk) :
    Except Failure String × Desk → Prop where
  /-- What was found has no length. -/
  | uncounted {e : Json.AccessError} (hcount : existing.count = .error e) :
    Remembered r path existing s d (.error (.access e), d)
  | known {n : Nat} (hcount : existing.count = .ok n) (hn : n ≠ 0) (answer printed : String) :
    Remembered r path existing s d
      (.ok answer, { d with
        projects := d.projects.set r.name (r.project path)
        record := { d.record with printed := printed } })
  | unstored {message : String} (hcount : existing.count = .ok 0)
    (hstored : s.database d.record.queries.length r.insertion = .error message) :
    Remembered r path existing s d
      (.error (.service message),
        { d with record := { d.record with queries := d.record.queries ++ [r.insertion] } })
  | added {row : Json} (hcount : existing.count = .ok 0)
    (hstored : s.database d.record.queries.length r.insertion = .ok row) (answer printed : String) :
    Remembered r path existing s d
      (.ok answer, { d with
        projects := d.projects.set r.name (r.project path)
        record := { d.record with
          queries := d.record.queries ++ [r.insertion]
          printed := printed } })

theorem remembered_remember (r : CloneRequest) (path : String) (existing : Json) (s : Services)
    (d : Desk) : Remembered r path existing s d (remember r path existing s d) := by
  unfold remember access
  cases hcount : existing.count with
  | error e => exact .uncounted hcount
  | ok n =>
    rw [ofExcept_ok_bind]
    cases hn : n == 0 with
    | false =>
      have hne : n ≠ 0 := by simpa using hn
      exact .known hcount hne _ _
    | true =>
      have hzero : n = 0 := by simpa using hn
      subst hzero
      have hinsert : Database.insertClone (.text r.name) (.text r.url) (.text r.branch)
          (.ofOption r.token) = query r.insertion := rfl
      simp only [if_true, hinsert]
      rw [bind_apply, query_apply]
      cases hstored : s.database d.record.queries.length r.insertion with
      | error message => exact .unstored hcount hstored
      | ok row => exact .added hcount hstored _ _

/-- `remember` touches no files and gives no command. -/
theorem remember_keeps (r : CloneRequest) (path : String) (existing : Json) (s : Services)
    (d : Desk) : (remember r path existing s d).2.files = d.files ∧
      (remember r path existing s d).2.record.commands = d.record.commands := by
  have hremembered := remembered_remember r path existing s d
  generalize remember r path existing s d = out at hremembered ⊢
  cases hremembered <;> exact ⟨rfl, rfl⟩

/-- What a client is told when `sync` fails. -/
def syncFailure (e : Failure) : Failure :=
  .http 400 ("Git operation failed: " ++ e.message)

/-- **The steps of a `fetch`.** It ends where `prepare` fails, or `sync`, or else as `remember`
does. -/
theorem fetch_steps (r : CloneRequest) (s : Services) (d : Desk) :
    (∃ e d₁, prepare r s d = (.error e, d₁) ∧ fetch r s d = (.error e, d₁)) ∨
      ∃ data d₁, prepare r s d = (.ok data, d₁) ∧
        ((∃ e, (sync r.url (copyPath d.files.base r.name) s d₁).1 = .error e ∧ fetch r s d =
            (.error (syncFailure e), (sync r.url (copyPath d.files.base r.name) s d₁).2)) ∨
          (sync r.url (copyPath d.files.base r.name) s d₁).1 = .ok () ∧
            fetch r s d = remember r (copyPath d.files.base r.name) data s
              (sync r.url (copyPath d.files.base r.name) s d₁).2) := by
  have hfetch : fetch r s d =
      (prepare r >>= fun existing =>
        rescue (sync r.url (copyPath d.files.base r.name)) syncFailure >>= fun _ =>
          remember r (copyPath d.files.base r.name) existing) s d := by
    unfold prepare
    simp only [desk_bind, bind_assoc]
    rfl
  rw [hfetch, bind_apply]
  obtain ⟨result, d₁⟩ := prepare r s d
  cases result with
  | error e => exact .inl ⟨e, d₁, rfl, rfl⟩
  | ok data =>
    refine .inr ⟨data, d₁, rfl, ?_⟩
    simp only
    rw [bind_apply, rescue]
    obtain ⟨result, d₂⟩ := sync r.url (copyPath d.files.base r.name) s d₁
    cases result with
    | error e => exact .inl ⟨e, rfl, rfl⟩
    | ok _ => exact .inr ⟨rfl, rfl⟩

/-- The projects in memory after a `fetch` with a result: only an answered one is remembered. -/
def CloneRequest.projectsAfter (r : CloneRequest) (d : Desk) : Except Failure String → Projects
  | .ok _ => d.projects.set r.name (r.project (copyPath d.files.base r.name))
  | .error _ => d.projects

theorem projectsAfter_of_remember (r : CloneRequest) {d₁ : Desk}
    (hprojects : d₁.projects = d.projects) (existing : Json) (s : Services) :
    (remember r (copyPath d.files.base r.name) existing s d₁).2.projects =
      r.projectsAfter d (remember r (copyPath d.files.base r.name) existing s d₁).1 := by
  have hremembered := remembered_remember r (copyPath d.files.base r.name) existing s d₁
  generalize remember r (copyPath d.files.base r.name) existing s d₁ = out at hremembered ⊢
  unfold CloneRequest.projectsAfter
  rw [← hprojects]
  cases hremembered <;> rfl

/-- **The files after a `fetch`**: as `prepare` left them, if it got no further, and else as
`carriedOut` left them; it is answered only if all commands were carried out. -/
theorem fetch_files_eq (r : CloneRequest) (s : Services) (d : Desk) :
    ((∃ e, (fetch r s d).1 = .error e) ∧ (fetch r s d).2.files = (prepare r s d).2.files) ∨
      ∃ carried, carried = carriedOut s
          (commandsFor (prepare r s d).2.files r.url (copyPath d.files.base r.name))
          (prepare r s d).2.files ∧
        (fetch r s d).2.files = carried.files ∧
        ((∃ m, (fetch r s d).1 = .ok m) → carried.outcome = .ok ()) := by
  rcases fetch_steps r s d with ⟨e, d₁, hprepare, hfetch⟩ | ⟨data, d₁, hprepare, hrest⟩
  · rw [hprepare, hfetch]
    exact .inl ⟨⟨e, rfl⟩, rfl⟩
  refine .inr ⟨_, rfl, ?_⟩
  rw [hprepare]
  rcases hrest with ⟨e, -, hfetch⟩ | ⟨hok, hfetch⟩
  · rw [hfetch, sync_apply]
    refine ⟨rfl, ?_⟩
    rintro ⟨m, hm⟩
    cases hm
  · rw [sync_apply] at hok
    rw [hfetch, (remember_keeps r _ data s _).1, sync_apply]
    refine ⟨rfl, fun _ => ?_⟩
    cases houtcome : (carriedOut s
        (commandsFor d₁.files r.url (copyPath d.files.base r.name)) d₁.files).outcome with
    | error message => rw [houtcome] at hok; cases hok
    | ok _ => rfl

theorem fetch_files (hfiles : ChangesFilesBy R s d.files.base (copyPath d.files.base r.name)) :
    R d.files (fetch r s d).2.files := by
  obtain ⟨made, hmade, hquiet⟩ := prepare_quiet (r := r) hfiles.parent s
  have hprepared : R d.files (prepare r s d).2.files := by
    rw [hquiet.files]
    exact hmade
  rcases fetch_files_eq r s d with ⟨-, heq⟩ | ⟨_, rfl, heq, -⟩
  · rw [heq]
    exact hprepared
  · rw [heq]
    exact trans_of R hprepared
      (carriedOut_files hfiles (fun _ hc => path?_of_mem_commandsFor hc) _)

/-- **The memory after a `fetch`** depends on its result alone. -/
theorem fetch_projects (r : CloneRequest) (s : Services) (d : Desk) :
    (fetch r s d).2.projects = r.projectsAfter d (fetch r s d).1 := by
  obtain ⟨made, -, hquiet⟩ := prepare_quiet (R := SameBase) (r := r) (d := d)
    (fun _ _ h => makeDirectories_sameBase h) s
  rcases fetch_steps r s d with ⟨e, d₁, hprepare, hfetch⟩ | ⟨data, d₁, hprepare, hrest⟩
  · rw [hprepare] at hquiet
    rw [hfetch]
    exact hquiet.projects
  rw [hprepare] at hquiet
  rcases hrest with ⟨e, -, hfetch⟩ | ⟨-, hfetch⟩
  · rw [hfetch, sync_apply]
    exact hquiet.projects
  · rw [hfetch, sync_apply]
    refine projectsAfter_of_remember r ?_ data s
    exact hquiet.projects

end Files

theorem changesFilesBy_sameBase (s : Services) (base path : String) :
    ChangesFilesBy SameBase s base path where
  parent _ _ h := makeDirectories_sameBase h
  git _ _ _ := rfl

/-! ## Runs -/

/-- A call of a client about a project. -/
inductive Call where
  | fetch (request : CloneRequest)
  | survey (name : String)
  | intoGraph (name : String)

namespace Call

/-- The name of the project that a call is about. -/
def subject : Call → String
  | .fetch r => r.name
  | .survey name => name
  | .intoGraph name => name

/-- The desk after a call, whatever its answer. -/
def perform (s : Services) : Call → Desk → Desk
  | .fetch r, d => (Repository.fetch r s d).2
  | .survey name, d => (Repository.survey name s d).2
  | .intoGraph name, d => (Repository.intoGraph name s d).2

theorem perform_base (s : Services) (c : Call) (d : Desk) :
    (c.perform s d).files.base = d.files.base := by
  cases c with
  | fetch r =>
    exact fetch_files (changesFilesBy_sameBase s d.files.base _)
  | survey name => exact congrArg base (survey_quiet name s d).files
  | intoGraph name =>
    rcases intoGraph_cases name s d with h | ⟨project, -, -, -, h, -⟩
    · exact congrArg base h.files
    · exact (congrArg base h).trans (removeTree_base d.files project.path)

end Call

/-- The desk after a run: each call is performed with what the services answer then. -/
def afterCalls (calls : List (Services × Call)) (d : Desk) : Desk :=
  calls.foldl (fun d c => c.2.perform c.1 d) d

@[simp] theorem afterCalls_concat (calls : List (Services × Call)) (s : Services) (c : Call)
    (d : Desk) : afterCalls (calls ++ [(s, c)]) d = c.perform s (afterCalls calls d) := by
  simp [afterCalls]

theorem afterCalls_base (calls : List (Services × Call)) (d : Desk) :
    (afterCalls calls d).files.base = d.files.base := by
  induction calls using reverseRecOn with
  | nil => rfl
  | append_singleton calls c ih =>
    rw [afterCalls_concat, Call.perform_base]
    exact ih

/-! ## Small runs -/

/-- The origin of a working copy, as `read` finds it in the file `.git/config`. -/
def originOf (read : List UInt8 → Option String) (n : Node) : Option String :=
  match n.at? [".git", "config"] with
  | some (.file bytes) => read bytes
  | _ => none

/-- The origin of the working copy that `find?` gives for a path. -/
def originAt (read : List UInt8 → Option String) (files : Workspace) (path : String) :
    Option String :=
  (files.find? path).bind (originOf read)

/-- A configuration that is nothing but the address of the origin, in ASCII. -/
def bareOrigin (bytes : List UInt8) : Option String :=
  some (String.ofList (bytes.map fun b => Char.ofNat b.toNat))

/-- A working copy of a repository with one file. -/
def sampleCopy (url file : String) : Node :=
  .directory true
    [(".git", .directory true [("config", .file (url.toList.map fun c => UInt8.ofNat c.toNat))]),
      (file, .file [])]

/-- What a git does that knows two repositories. It clones by putting a working copy in its place,
and leaves working copies as they are. -/
def sampleGit : CopyCommand → Workspace → Except String Unit × Node
  | .clone url path, w =>
    if url = "r:one" ∨ url = "r:two" then
      let file := if url = "r:one" then "one" else "two"
      let cloned := w.put (resolved path) (sampleCopy url file)
      if originAt bareOrigin cloned path = some url then (.ok (), cloned.root)
      else (.error "could not create work tree", w.root)
    else (.error "no such repository", w.root)
  | .pull path, w =>
    if (originAt bareOrigin w path).isSome then (.ok (), w.root)
    else (.error "no remote repository", w.root)
  | _, w => (.ok (), w.root)

/-- Services with `sampleGit`, no stored clone, and an assistant that answers nothing. -/
def twoRepositories : Services where
  database _ _ := .ok (.array [])
  web _ _ := .error "no such address"
  graph _ _ := .ok []
  assistant := .reply (some "")
  helper := none
  git := sampleGit
  changes := ""
  settings := ⟨none, none, none⟩
  now := 0

/-- A request for a repository under a name. -/
def requestFor (url name : String) : CloneRequest :=
  ⟨url, "main", none, name⟩

end Repository

end CodeAtlas
