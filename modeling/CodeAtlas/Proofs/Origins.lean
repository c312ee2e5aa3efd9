import CodeAtlas.Proofs.Isolation

/-!
# Where working copies come from

The memory says of every project which repository it is, and git keeps in every working copy the
address it was cloned from, its origin (`originAt`). The two agree (`Genuine`) along a run exactly
as long as no fetch `PullsAnother` repository than the one asked for, and no call `Disturbs` a
working copy that stays in memory (`genuine_along_run`). Where projects are named by names, no call
disturbs another; and from an empty directory of working copies on, requests that never use one name
for two repositories keep the two agreed.
-/

open List

namespace CodeAtlas

open CodeAtlas.Path

namespace Repository

open Act Workspace

/-! ## Memory and origins -/

/-- The `source` of every remembered project is the origin of the working copy at its path. -/
def Genuine (read : List UInt8 → Option String) (d : Desk) : Prop :=
  ∀ name project source, d.projects.get? name = some project → project.source = some source →
    originAt read d.files project.path = some source.url

/-- What git does with the origins of working copies, as `originAt` reads them. -/
structure RecordsOrigins (read : List UInt8 → Option String) (s : Services) : Prop where
  /-- A clone has for its origin the address that it was cloned from. -/
  cloned : ∀ url path files, (s.git (.clone url path) files).1 = .ok () →
    originAt read (filesAfter s (.clone url path) files) path = some url
  /-- Where nothing was, a clone leaves no other origin behind, also if it fails. -/
  left : ∀ url path files, files.exists? path = false → ∀ other,
    originAt read (filesAfter s (.clone url path) files) path = some other → other = url
  /-- No other command changes the origin of the working copy that it is about. -/
  kept : ∀ path files, ∀ c ∈ [CopyCommand.opening path, .reset path, .clean path, .pull path],
    originAt read (filesAfter s c files) path = originAt read files path
  /-- Nothing is pulled without an origin. -/
  pulled : ∀ path files, (s.git (.pull path) files).1 = .ok () → (originAt read files path).isSome

/-- A `fetch` that does not fail. -/
def Answered (s : Services) (d : Desk) (r : CloneRequest) : Prop :=
  ∃ m, (fetch r s d).1 = .ok m

/-- A `fetch` that is answered after it has brought up to date what it found at its path, which is
no working copy of the repository asked for. -/
def PullsAnother (read : List UInt8 → Option String) (s : Services) (d : Desk) (r : CloneRequest) :
    Prop :=
  Answered s d r ∧ (prepare r s d).2.files.exists? (copyPath d.files.base r.name) = true ∧
    originAt read (prepare r s d).2.files (copyPath d.files.base r.name) ≠ some r.url

/-- A call that takes away or replaces the working copy of a project that stays in memory. -/
def Disturbs (read : List UInt8 → Option String) (s : Services) (d : Desk) (c : Call) : Prop :=
  ∃ name project source, d.projects.get? name = some project ∧
    (c.perform s d).projects.get? name = some project ∧ project.source = some source ∧
    originAt read d.files project.path = some source.url ∧
    originAt read (c.perform s d).files project.path ≠ some source.url

variable {read : List UInt8 → Option String} {s : Services} {d : Desk} {r : CloneRequest}
  {calls : List (Services × Call)} {base name path : String} {w : Workspace}

theorem originAt_eq_none (h : w.exists? path = false) : originAt read w path = none := by
  rw [exists?, Option.isSome_eq_false_iff, Option.isNone_iff_eq_none] at h
  rw [originAt, h]
  rfl

/-! ## The working copy after a fetch -/

/-- The commands of an update keep the origin, up to the one that fails. -/
theorem originAt_carriedOut (hs : RecordsOrigins read s) {cs : List CopyCommand}
    (hcs : cs ⊆ [.opening path, .reset path, .clean path, .pull path]) (files : Workspace) :
    originAt read (carriedOut s cs files).files path = originAt read files path := by
  induction cs generalizing files with
  | nil => rfl
  | cons c rest ih =>
    have hstep := hs.kept path files c (hcs mem_cons_self)
    rw [carriedOut]
    cases (s.git c files).1 with
    | error message => exact hstep
    | ok _ => exact (ih (fun _ hc => hcs (mem_cons_of_mem _ hc)) _).trans hstep

/-- If `carriedOut` ends well, so did the last command. -/
theorem git_last_of_carriedOut (before : List CopyCommand) {c : CopyCommand} {files : Workspace}
    (h : (carriedOut s (before ++ [c]) files).outcome = .ok ()) :
    (s.git c (carriedOut s before files).files).1 = .ok () := by
  induction before generalizing files with
  | nil =>
    rw [nil_append, carriedOut] at h
    change (s.git c files).1 = .ok ()
    cases hgit : (s.git c files).1 with
    | error message => rw [hgit] at h; cases h
    | ok _ => rfl
  | cons first rest ih =>
    rw [cons_append, carriedOut] at h
    rw [carriedOut]
    cases hgit : (s.git first files).1 with
    | error message => rw [hgit] at h; cases h
    | ok _ =>
      rw [hgit] at h
      exact ih h

/-- What becomes of the origin at the path of a `fetch`: what it was `before`, whether a copy was
there, and what it is `after`. -/
inductive Fate (url : String) (isAnswered : Prop) (before : Option String) (isThere : Bool)
    (after : Option String) : Prop where
  /-- The fetch failed before it came to the working copy. -/
  | untouched (unanswered : ¬ isAnswered) (same : after = before)
  | updated (found : isThere = true) (same : after = before) (pulled : isAnswered → before.isSome)
  | cloned (missing : isThere = false) (left : ∀ other, after = some other → other = url)
    (answered : isAnswered → after = some url)

/-- Every `fetch` leaves the origin at its path to one of the three fates. -/
theorem fate_of_fetch (hs : RecordsOrigins read s) (d : Desk) (r : CloneRequest) :
    Fate r.url (Answered s d r)
      (originAt read (prepare r s d).2.files (copyPath d.files.base r.name))
      ((prepare r s d).2.files.exists? (copyPath d.files.base r.name))
      (originAt read (fetch r s d).2.files (copyPath d.files.base r.name)) := by
  rcases fetch_files_eq r s d with ⟨⟨e, he⟩, hfiles⟩ | ⟨carried, hcarried, hfiles, houtcome⟩
  · refine .untouched ?_ (by rw [hfiles])
    rintro ⟨m, hm⟩
    rw [he] at hm
    cases hm
  -- a copy that is there is pulled, one that is not is cloned
  cases hexists : (prepare r s d).2.files.exists? (copyPath d.files.base r.name) with
  | true =>
    rw [commandsFor, if_pos hexists] at hcarried
    refine .updated rfl ?_ fun hanswered => ?_
    · rw [hfiles, hcarried]
      exact originAt_carriedOut hs (Subset.refl _) _
    · -- the pull was given what the commands before it left
      have hok := houtcome hanswered
      rw [hcarried] at hok
      have hpulled := hs.pulled _ _
        (git_last_of_carriedOut [.opening _, .reset _, .clean _] hok)
      rwa [originAt_carriedOut hs (by simp)] at hpulled
  | false =>
    rw [commandsFor, hexists, if_neg Bool.false_ne_true] at hcarried
    have hclone : carried.files = filesAfter s (.clone r.url (copyPath d.files.base r.name))
        (prepare r s d).2.files := by
      rw [hcarried, carriedOut]
      cases (s.git (.clone r.url (copyPath d.files.base r.name)) (prepare r s d).2.files).1 with
      | error _ | ok _ => rfl
    rw [hclone] at hfiles
    refine .cloned rfl (fun url hurl => ?_) fun hanswered => ?_
    · rw [hfiles] at hurl
      exact hs.left _ _ _ hexists _ hurl
    · have hok := houtcome hanswered
      rw [hcarried] at hok
      rw [hfiles]
      exact hs.cloned _ _ _ (git_last_of_carriedOut [] hok)

/-! ## Exactly what breaks the agreement -/

/-- **One call keeps the memory `Genuine` exactly if** it neither `Disturbs` a working copy nor
`PullsAnother` repository than the one asked for. -/
theorem genuine_perform_iff (h : Genuine read d) (hs : RecordsOrigins read s) (c : Call) :
    Genuine read (c.perform s d) ↔
      ¬ Disturbs read s d c ∧ ∀ r, c = .fetch r → ¬ PullsAnother read s d r := by
  constructor
  · intro hafter
    refine ⟨?_, ?_⟩
    · rintro ⟨name, project, source, -, hget, hsource, -, hne⟩
      exact hne (hafter name project source hget hsource)
    · rintro r rfl ⟨hanswered, hfound, hne⟩
      have hget : (fetch r s d).2.projects.get? r.name =
          some (r.project (copyPath d.files.base r.name)) := by
        rw [fetch_projects]
        exact get?_projectsAfter_iff.mpr (.inl ⟨hanswered, rfl, rfl⟩)
      have horigin := hafter r.name _ ⟨r.url, r.branch, r.token⟩ hget rfl
      cases fate_of_fetch hs d r with
      | untouched unanswered => exact unanswered hanswered
      | updated _ same => exact hne (same ▸ horigin)
      | cloned missing => rw [missing] at hfound; cases hfound
  · rintro ⟨hdisturbs, hpulls⟩ name project source hget hsource
    -- a project that was in memory before keeps its origin, since nothing is disturbed
    have hold : d.projects.get? name = some project →
        originAt read (c.perform s d).files project.path = some source.url := by
      intro hbefore
      by_contra hne
      exact hdisturbs ⟨name, project, source, hbefore, hget, hsource,
        h name project source hbefore hsource, hne⟩
    cases c with
    | survey n => exact hold ((survey_quiet n s d).projects ▸ hget)
    | intoGraph n => exact hold (intoGraph_forgets n s d name project hget)
    | fetch r =>
      have hprojects : (r.projectsAfter d (fetch r s d).1).get? name = some project := by
        rw [← fetch_projects]
        exact hget
      rcases get?_projectsAfter_iff.mp hprojects with ⟨hanswered, -, rfl⟩ | ⟨hbefore, -⟩
      · cases hsource
        change originAt read (fetch r s d).2.files (copyPath d.files.base r.name) = some r.url
        cases fate_of_fetch hs d r with
        | untouched unanswered => exact absurd hanswered unanswered
        | updated found same =>
          rw [same]
          by_contra hne
          exact hpulls r rfl ⟨hanswered, found, hne⟩
        | cloned _ _ answered => exact answered hanswered
      · exact hold hbefore

/-! ## Projects under names -/

/-- What `Advances` one working copy changes the origin of no other. -/
theorem originAt_beside {w' : Workspace} {other : String}
    (h : Tidy base copies w) (hadvances : Advances base copies name w w')
    (hother : isName other) (hne : other ≠ name) :
    originAt read w' (copyPath base other) = originAt read w (copyPath base other) := by
  obtain ⟨h', hspares⟩ := hadvances h
  rw [originAt, originAt, find?_beside h h' hspares hother hne]

/-- What `prepare` does before git is asked changes no origin. -/
theorem originAt_prepare (read : List UInt8 → Option String)
    (h : Tidy base copies d.files) (hname : isName name) (r : CloneRequest) (s : Services) :
    originAt read (prepare r s d).2.files (copyPath base name) =
      originAt read d.files (copyPath base name) := by
  -- what it changes is beside this working copy, whatever other name is taken
  have hne : name ≠ name ++ "a" := by
    intro heq
    have hlength := congrArg String.length heq
    rw [String.length_append] at hlength
    exact absurd hlength (by simp)
  obtain ⟨made, hmade, hquiet⟩ := prepare_quiet (R := Advances base copies (name ++ "a"))
    (r := r) (d := d)
    (fun _ _ hw => makeDirectories_advances isName_copies _ (h.base ▸ hw)) s
  rw [hquiet.files]
  exact originAt_beside h hmade hname hne

/-- **Where projects are named by names, no call `Disturbs` a working copy.** -/
theorem not_disturbs {c : Call} (htraced : Traced base calls d)
    (htidy : Tidy base copies d.files) (hnames : ∀ call ∈ calls, isName call.2.subject)
    (hname : isName c.subject) (hgit : KeepsToCopy s base c.subject) (hs : RecordsOrigins read s) :
    ¬ Disturbs read s d c := by
  rintro ⟨name, project, source, hget, hafter, -, horigin, hne⟩
  obtain ⟨s', r', hmem, rfl, rfl⟩ := htraced name project hget
  have hother : isName r'.name := hnames _ hmem
  rw [← horigin] at hne
  refine hne ?_
  change originAt read (c.perform s d).files (copyPath base r'.name) =
    originAt read d.files (copyPath base r'.name)
  by_cases hsubject : r'.name = c.subject
  case neg =>
    exact originAt_beside htidy (Call.perform_advances htraced htidy.base c hname hgit).1 hother
      hsubject
  -- the call is about the project itself, and its working copy was there
  cases c with
  | survey n => exact congrArg (originAt read · _) (survey_quiet n s d).files
  | intoGraph n =>
    rcases intoGraph_cases n s d with hquiet | ⟨p, -, -, -, -, hprojects, -⟩
    · exact congrArg (originAt read · _) hquiet.files
    · change (intoGraph n s d).2.projects.get? r'.name = _ at hafter
      have hforgotten : r'.name = n := hsubject
      rw [hprojects, hforgotten, Projects.get?_erase_self] at hafter
      cases hafter
  | fetch r =>
    have hnames : r'.name = r.name := hsubject
    have hprepare := originAt_prepare read htidy hother r s
    have hfate := fate_of_fetch hs d r
    rw [hnames] at hprepare horigin ⊢
    change originAt read (fetch r s d).2.files _ = _
    cases hfate with
    | untouched _ same => rw [← htidy.base, same, htidy.base, hprepare]
    | updated _ same => rw [← htidy.base, same, htidy.base, hprepare]
    | cloned missing =>
      rw [htidy.base] at missing
      rw [originAt_eq_none missing] at hprepare
      change originAt read d.files (copyPath base r.name) = _ at horigin
      rw [← hprepare] at horigin
      cases horigin

/-! ## One repository per name -/

/-- Every origin of a working copy is the address of a request with its name. -/
def OriginsAsked (read : List UInt8 → Option String) (base : String)
    (calls : List (Services × Call)) (d : Desk) : Prop :=
  ∀ name url, isName name → originAt read d.files (copyPath base name) = some url →
    ∃ s r, (s, Call.fetch r) ∈ calls ∧ r.name = name ∧ r.url = url

/-- An origin is read from a file in the working copy. -/
theorem file_of_originAt (h : Tidy base copies w) (hname : isName name) {url : String}
    (horigin : originAt read w (copyPath base name) = some url) :
    ∃ bytes, read bytes = some url ∧
      w.root.at? (properComponents base ++ [copies, name] ++ [".git", "config"]) =
        some (.file bytes) := by
  obtain ⟨n, hn, hread⟩ := Option.bind_eq_some_iff.mp horigin
  have hat := at?_of_find?_copyPath h hname hn
  unfold originOf at hread
  split at hread
  case h_1 bytes hfile => exact ⟨bytes, hread, by rw [Node.at?_append, hat]; exact hfile⟩
  case h_2 => cases hread

/-- After `removeTree` a working copy has no origin, or the one that it had. -/
theorem originAt_removeTree (h : Tidy base copies w) (hname : isName name)
    (hthere : w.exists? (copyPath base name) = true) {url : String}
    (horigin : originAt read (w.removeTree (copyPath base name)).1 (copyPath base name) = some url) :
    originAt read w (copyPath base name) = some url := by
  obtain ⟨hadvances, hfiles⟩ :=
    removeTree_thins hname (spells_copyPath h.spells hname) h
  obtain ⟨bytes, hread, hfile⟩ := file_of_originAt (hadvances h).1 hname horigin
  have hbefore := hfiles h _ _ hfile
  obtain ⟨n, hn⟩ := Option.isSome_iff_exists.mp hthere
  rw [Node.at?_append, at?_of_find?_copyPath h hname hn, Option.bind_some] at hbefore
  rw [originAt, hn, Option.bind_some, originOf, hbefore]
  exact hread

/-- One call keeps `OriginsAsked`, with its own request among the calls. -/
theorem OriginsAsked.perform {c : Call} (h : OriginsAsked read base calls d)
    (htraced : Traced base calls d) (htidy : Tidy base copies d.files)
    (hname : isName c.subject) (hgit : KeepsToCopy s base c.subject) (hs : RecordsOrigins read s) :
    OriginsAsked read base (calls ++ [(s, c)]) (c.perform s d) := by
  intro name url hnamed horigin
  -- an origin that was there before goes back to a request before this call
  have hold : originAt read d.files (copyPath base name) = some url →
      ∃ s' r, (s', Call.fetch r) ∈ calls ++ [(s, c)] ∧ r.name = name ∧ r.url = url := by
    intro hbefore
    obtain ⟨s', r, hmem, hr⟩ := h name url hnamed hbefore
    exact ⟨s', r, mem_append_left _ hmem, hr⟩
  by_cases hsubject : name = c.subject
  case neg =>
    refine hold ?_
    rw [← horigin]
    exact (originAt_beside htidy (Call.perform_advances htraced htidy.base c hname hgit).1 hnamed
      hsubject).symm
  cases c with
  | survey n =>
    have hfiles := (survey_quiet n s d).files
    change originAt read (survey n s d).2.files _ = _ at horigin
    exact hold (hfiles ▸ horigin)
  | intoGraph n =>
    change originAt read (intoGraph n s d).2.files _ = _ at horigin
    rcases intoGraph_cases n s d with hquiet | ⟨project, -, hproject, -, hfiles, -, -, hdirectory⟩
    · exact hold (hquiet.files ▸ horigin)
    · obtain ⟨s', r, -, hr, rfl⟩ := htraced n project hproject
      have hpath : (r.project (copyPath base r.name)).path = copyPath base name := by
        change copyPath base r.name = _
        rw [← hr, hsubject]
        rfl
      rw [hfiles, hpath] at horigin
      refine hold (originAt_removeTree htidy hnamed ?_ horigin)
      rw [hpath, isDirectory] at hdirectory
      rw [exists?]
      cases hfind : d.files.find? (copyPath base name) with
      | none => rw [hfind] at hdirectory; cases hdirectory
      | some n => rfl
  | fetch r =>
    have hnames : name = r.name := hsubject
    subst hnames
    change originAt read (fetch r s d).2.files _ = _ at horigin
    have hprepare := originAt_prepare read htidy hnamed r s
    have hfate := fate_of_fetch hs d r
    rw [← htidy.base] at horigin hprepare hold
    cases hfate with
    | untouched _ same => exact hold (by rw [← hprepare, ← same, horigin])
    | updated _ same => exact hold (by rw [← hprepare, ← same, horigin])
    | cloned _ left => exact ⟨s, r, by simp, rfl, (left url horigin).symm⟩

/-- From a directory without working copies, a run keeps `OriginsAsked`. -/
theorem originsAsked_afterCalls {files : Workspace} (htidy : Tidy files.base copies files)
    (hempty : ∀ name, files.root.at? (files.home ++ [copies, name]) = none)
    (horigins : ∀ call ∈ calls, RecordsOrigins read call.1)
    (hcalls : ∀ call ∈ calls, isName call.2.subject ∧
      KeepsToCopy call.1 files.base call.2.subject) (record : Record) :
    OriginsAsked read files.base calls (afterCalls calls ⟨files, [], record⟩) := by
  induction calls using reverseRecOn with
  | nil =>
    intro name url hname horigin
    change originAt read files (copyPath files.base name) = some url at horigin
    rw [originAt, find?_copyPath_of_none htidy hname (hempty name)] at horigin
    cases horigin
  | append_singleton calls call ih =>
    have hbefore : ∀ call ∈ calls, isName call.2.subject ∧
        KeepsToCopy call.1 files.base call.2.subject :=
      fun c hc => hcalls c (mem_append_left _ hc)
    obtain ⟨hname, hgit⟩ := hcalls call (by simp)
    rw [afterCalls_concat]
    exact (ih (fun c hc => horigins c (mem_append_left _ hc)) hbefore).perform
      (traced_afterCalls calls files record) (tidy_afterCalls htidy hbefore record) hname hgit
      (horigins call (by simp))

/-- No fetch `PullsAnother` repository if all requests before with its name were for the same. -/
theorem not_pullsAnother (calls : List (Services × Call)) (h : OriginsAsked read d.files.base calls d)
    (htidy : Tidy d.files.base copies d.files) (hname : isName r.name)
    (hs : RecordsOrigins read s)
    (hagree : ∀ s' r', (s', Call.fetch r') ∈ calls → r'.name = r.name → r'.url = r.url) :
    ¬ PullsAnother read s d r := by
  rintro ⟨hanswered, hfound, hne⟩
  cases fate_of_fetch hs d r with
  | untouched unanswered => exact unanswered hanswered
  | cloned missing => rw [missing] at hfound; cases hfound
  | updated _ _ pulled =>
    obtain ⟨url, hurl⟩ := Option.isSome_iff_exists.mp (pulled hanswered)
    have hbefore := originAt_prepare read htidy hname r s ▸ hurl
    obtain ⟨s', r', hmem, hsame, rfl⟩ := h r.name url hname hbefore
    exact hne (by rw [hurl, hagree s' r' hmem hsame])

/-! ## Runs -/

/-- **Memory and origins agree exactly as long as nothing is mixed up.** From an empty memory, over
every run: each remembered project is of the repository that its working copy was cloned from, in
every state on the way, exactly if no call `Disturbs` a working copy and no fetch `PullsAnother`
repository than the one asked for. Where projects are named by names and git keeps to their working
copies, no call disturbs any; and if moreover there were no working copies at the start, and no name
is used for two repositories, the two always agree. -/
theorem genuine_along_run (read : List UInt8 → Option String) (files : Workspace) (record : Record)
    (calls : List (Services × Call)) (horigins : ∀ call ∈ calls, RecordsOrigins read call.1) :
    ((∀ before after, calls = before ++ after →
        Genuine read (afterCalls before ⟨files, [], record⟩)) ↔
      ∀ before s c after, calls = before ++ (s, c) :: after →
        ¬ Disturbs read s (afterCalls before ⟨files, [], record⟩) c ∧
          ∀ r, c = .fetch r → ¬ PullsAnother read s (afterCalls before ⟨files, [], record⟩) r) ∧
    (Tidy files.base copies files →
      (∀ call ∈ calls, Path.isName call.2.subject = true ∧
        KeepsToCopy call.1 files.base call.2.subject) →
      (∀ before s c after, calls = before ++ (s, c) :: after →
        ¬ Disturbs read s (afterCalls before ⟨files, [], record⟩) c) ∧
      ((∀ name, files.root.at? (files.home ++ [copies, name]) = none) →
        (∀ s r s' r', (s, Call.fetch r) ∈ calls → (s', Call.fetch r') ∈ calls →
          r.name = r'.name → r.url = r'.url) →
        ∀ before after, calls = before ++ after →
          Genuine read (afterCalls before ⟨files, [], record⟩))) := by
  -- the run lemma: what no call breaks holds after every part of the run
  have hrun : (∀ before s c after, calls = before ++ (s, c) :: after →
      ¬ Disturbs read s (afterCalls before ⟨files, [], record⟩) c ∧
        ∀ r, c = .fetch r → ¬ PullsAnother read s (afterCalls before ⟨files, [], record⟩) r) →
      ∀ before after, calls = before ++ after →
        Genuine read (afterCalls before ⟨files, [], record⟩) := by
    intro hno before
    induction before using reverseRecOn with
    | nil =>
      intro _ _ name project source hget
      cases hget
    | append_singleton before call ih =>
      intro after hcalls
      obtain ⟨s, c⟩ := call
      rw [append_assoc, singleton_append] at hcalls
      rw [afterCalls_concat]
      have hs := horigins (s, c) (by rw [hcalls]; simp)
      exact (genuine_perform_iff (ih _ hcalls) hs c).mpr (hno before s c after hcalls)
  refine ⟨⟨fun hgenuine before s c after hcalls => ?_, hrun⟩, fun htidy hnamed => ?_⟩
  · have hafter := hgenuine (before ++ [(s, c)]) after (by rw [hcalls]; simp)
    rw [afterCalls_concat] at hafter
    have hs := horigins (s, c) (by rw [hcalls]; simp)
    exact (genuine_perform_iff (hgenuine before _ hcalls) hs c).mp hafter
  have hdisturbs : ∀ before s c after, calls = before ++ (s, c) :: after →
      ¬ Disturbs read s (afterCalls before ⟨files, [], record⟩) c := by
    intro before s c after hcalls
    have hbefore : ∀ call ∈ before, isName call.2.subject ∧
        KeepsToCopy call.1 files.base call.2.subject :=
      fun call hcall => hnamed call (by rw [hcalls]; exact mem_append_left _ hcall)
    obtain ⟨hname, hgit⟩ := hnamed (s, c) (by rw [hcalls]; simp)
    exact not_disturbs (traced_afterCalls before files record)
      (tidy_afterCalls htidy hbefore record) (fun call hcall => (hbefore call hcall).1) hname hgit
      (horigins (s, c) (by rw [hcalls]; simp))
  refine ⟨hdisturbs, fun hempty hagree => hrun fun before s c after hcalls =>
    ⟨hdisturbs before s c after hcalls, ?_⟩⟩
  rintro r rfl
  have hmem : ∀ call ∈ before, call ∈ calls :=
    fun call hcall => by rw [hcalls]; exact mem_append_left _ hcall
  have hthis : (s, Call.fetch r) ∈ calls := by rw [hcalls]; simp
  have hbase := afterCalls_base before ⟨files, [], record⟩
  refine not_pullsAnother before ?_ ?_ (hnamed _ hthis).1 (horigins _ hthis)
    fun s' r' hr' hsame => hagree s' r' s r (hmem _ hr') hthis hsame
  · rw [hbase]
    exact originsAsked_afterCalls htidy hempty (fun call hcall => horigins call (hmem call hcall))
      (fun call hcall => hnamed call (hmem call hcall)) record
  · rw [hbase]
    exact tidy_afterCalls htidy (fun call hcall => hnamed call (hmem call hcall)) record

/-! ## Two repositories -/

/-- One name for two repositories: the second request is answered, the memory names the second
repository, and what is surveyed is the first. -/
theorem one_name_two_repositories :
    let d := afterCalls
      [(twoRepositories, .fetch (requestFor "r:one" "p")),
        (twoRepositories, .fetch (requestFor "r:two" "p"))]
      (Desk.empty "/w")
    d.projects.get? "p" = some ⟨"/w/UserRepos/p", some ⟨"r:two", "main", none⟩⟩ ∧
      (surveyed none d.files d.projects "p").toOption.map (·.map Report.file) =
        some ["/w/UserRepos/p/one", "/w/UserRepos/p/.git/config"] ∧
      ¬ Genuine bareOrigin d := by
  intro d
  have hrun : d.projects.get? "p" = some ⟨"/w/UserRepos/p", some ⟨"r:two", "main", none⟩⟩ ∧
      (surveyed none d.files d.projects "p").toOption.map (·.map Report.file) =
        some ["/w/UserRepos/p/one", "/w/UserRepos/p/.git/config"] ∧
      originAt bareOrigin d.files "/w/UserRepos/p" = some "r:one" := by
    decide +kernel
  obtain ⟨hproject, hsurvey, horigin⟩ := hrun
  refine ⟨hproject, hsurvey, fun h => ?_⟩
  have hsource := h "p" _ _ hproject rfl
  rw [horigin] at hsource
  exact absurd (Option.some.inj hsource) (by decide)

theorem recordsOrigins_sampleGit : RecordsOrigins bareOrigin twoRepositories where
  cloned url path files hok := by
    rcases sampleGit_cases (.clone url path) files with
      ⟨-, hfails⟩ | ⟨url', path', file, hclone, -, hfiles, horigin⟩
    · exact absurd hok (hfails url path rfl)
    · cases hclone
      rw [hfiles, horigin]
  left url path files hmissing other hother := by
    rcases sampleGit_cases (.clone url path) files with
      ⟨hsame, -⟩ | ⟨url', path', file, hclone, -, hfiles, horigin⟩
    · rw [hsame, originAt_eq_none hmissing] at hother
      cases hother
    · cases hclone
      rw [hfiles, horigin] at hother
      exact (Option.some.inj hother).symm
  kept path files c hc := by
    rcases sampleGit_cases c files with ⟨hsame, -⟩ | ⟨url', path', file, rfl, -⟩
    · rw [hsame]
    · simp at hc
  pulled path files hok := by
    by_contra hnone
    have hfails : sampleGit (.pull path) files = (.error "no remote repository", files.root) := by
      simp only [sampleGit, if_neg hnone]
    change (sampleGit (.pull path) files).1 = _ at hok
    rw [hfails] at hok
    cases hok

/-- A run that uses each name for one repository, and the second name twice. -/
theorem genuine_along_run_two :
    Genuine bareOrigin (afterCalls
      [(twoRepositories, .fetch (requestFor "r:one" "p")),
        (twoRepositories, .fetch (requestFor "r:two" "q")),
        (twoRepositories, .fetch (requestFor "r:two" "q"))]
      (Desk.empty "/w")) := by
  have hcases : ∀ {call}, call ∈ [
      (twoRepositories, Call.fetch (requestFor "r:one" "p")),
      (twoRepositories, .fetch (requestFor "r:two" "q")),
      (twoRepositories, .fetch (requestFor "r:two" "q"))] →
      call = (twoRepositories, .fetch (requestFor "r:one" "p")) ∨
        call = (twoRepositories, .fetch (requestFor "r:two" "q")) := by
    intro call h
    simp only [mem_cons, not_mem_nil, or_false] at h
    tauto
  refine ((genuine_along_run bareOrigin (.empty "/w") .empty _ fun call hcall => ?_).2 tidy_empty
    fun call hcall => ?_).2 (fun name => ?_) (fun s r s' r' hr hr' hname => ?_) _ []
      (append_nil _).symm
  · rcases hcases hcall with rfl | rfl <;> exact recordsOrigins_sampleGit
  · have hnamed : isName call.2.subject := by
      rcases hcases hcall with rfl | rfl <;> decide +kernel
    refine ⟨hnamed, ?_⟩
    rcases hcases hcall with rfl | rfl <;> exact keepsToCopy_sampleGit _ hnamed
  · have hhome : (empty "/w").home = ["w"] := by decide +kernel
    rw [hhome]
    rfl
  · rcases hcases hr with heq | heq <;> rcases hcases hr' with heq' | heq' <;> cases heq <;>
      cases heq'
    · rfl
    · exact absurd hname (by decide)
    · exact absurd hname (by decide)
    · rfl

end Repository

end CodeAtlas
