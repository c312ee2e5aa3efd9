import CodeAtlas.Proofs.Memory

/-!
# Where projects are kept, and what is removed

A project is kept at the path that its name is joined to, and names are not checked. So it is kept
below the directory of all working copies exactly if its name stays below (`Path.StaysBelow`), and
what is removed with it is below that directory, too, unless a link on its path leads elsewhere. A
name with enough points leads out.
-/

namespace CodeAtlas.Repository

open Workspace

open CodeAtlas.Path (LiesBelow StaysBelow resolved isAbsolute)

variable {files : Workspace} {directory path : String} {p : Place} {followLast : Bool}

/-- A path that `LiesBelow` a directory, on which no link is followed, leads below the directory. -/
theorem location_of_liesBelow (h : LiesBelow directory path) (habs : isAbsolute directory)
    (hp : files.resolve followLast path = .ok p) (hlinks : p.linksLeft = linkLimit)
    (rest : List String) : resolved directory <+: p.location ++ rest ∧
      resolved directory ≠ p.location ++ rest := by
  obtain ⟨-, -, -, hres⟩ := resolve_eq_ok_iff.mp hp
  have hstart : start files.home path = [] := by
    rw [start, h.1, if_pos habs]
  have hlocation : p.location = resolved path := by
    rw [location_of_straight hres hlinks, hstart, resolved]
  rw [hlocation]
  exact h.append rest

/-- **Projects are kept below the directory of all working copies exactly if their names stay
there.** In every state that a run from an empty memory reaches, a remembered project is at the path
its name is joined to, which lies strictly below that directory exactly if the name stays below it.
Whatever is gone after a project was turned into graph statements was at the place that its path
leads to, or below; where the name stays below the directory, and no link is followed on the way,
all that is gone was strictly below the directory. -/
theorem copies_contain_iff (files : Workspace) (record : Record) (calls : List (Services × Call))
    (name : String) (s : Services) (hbase : Path.isAbsolute files.base = true) :
    let d := afterCalls calls ⟨files, [], record⟩
    let directory := Path.join files.base copies
    (∀ project, d.projects.get? name = some project →
      project.path = Path.join directory name ∧
        (LiesBelow directory project.path ↔ StaysBelow directory name)) ∧
    (∀ l, (d.files.root.at? l).isSome = true →
      (intoGraph name s d).2.files.root.at? l = none →
      ∃ project p, d.projects.get? name = some project ∧
        d.files.resolve false project.path = .ok p ∧ p.location <+: l ∧
        (StaysBelow directory name → p.linksLeft = linkLimit →
          resolved directory <+: l ∧ resolved directory ≠ l)) := by
  intro d directory
  have hpath : ∀ project, d.projects.get? name = some project →
      project.path = Path.join directory name := by
    intro project hget
    obtain ⟨s', r, -, hname, hproject⟩ := traced_afterCalls calls files record name project hget
    rw [hproject, hname]
    rfl
  refine ⟨fun project hget => ⟨hpath project hget, ?_⟩, fun l hthere hgone => ?_⟩
  · rw [hpath project hget]
    exact Path.liesBelow_join_iff directory name
  · rcases intoGraph_cases name s d with hquiet | ⟨project, text, hget, -, hfiles, -⟩
    · rw [hquiet.files] at hgone
      rw [hgone] at hthere
      cases hthere
    · rw [hfiles] at hgone
      obtain ⟨p, hp, hl⟩ := location_of_removed hthere hgone
      refine ⟨project, p, hget, hp, hl, fun hstays hlinks => ?_⟩
      obtain ⟨rest, rfl⟩ := hl
      have hbelow : LiesBelow directory project.path := by
        rw [hpath project hget]
        exact (Path.liesBelow_join_iff directory name).mpr hstays
      have habs : isAbsolute directory := by
        rw [Path.isAbsolute_join _ (by decide +kernel), hbase]
      exact location_of_liesBelow hbelow habs hp hlinks rest

/-- A desk with one project, kept under a name of its own. -/
def deskWithOwnName : Desk :=
  afterCalls [(twoRepositories, .fetch (requestFor "r:one" "p"))] ⟨.empty "/w", [], .empty⟩

/-- All that `intoGraph` removes with it is below the directory of all working copies. -/
theorem copies_contain_own :
    LiesBelow (Path.join "/w" copies) "/w/UserRepos/p" ∧
      (deskWithOwnName.files.root.at? ["w", "UserRepos", "p", "one"]).isSome = true ∧
      ∀ l, (deskWithOwnName.files.root.at? l).isSome = true →
        (intoGraph "p" twoRepositories deskWithOwnName).2.files.root.at? l = none →
          ["w", "UserRepos"] <+: l := by
  have hrun : (deskWithOwnName.projects.get? "p").map Project.path = some "/w/UserRepos/p" ∧
      ((deskWithOwnName.files.resolve false "/w/UserRepos/p").toOption.map Place.linksLeft) =
        some linkLimit ∧
      (deskWithOwnName.files.root.at? ["w", "UserRepos", "p", "one"]).isSome = true ∧
      StaysBelow (Path.join "/w" copies) "p" ∧
      resolved (Path.join "/w" copies) = ["w", "UserRepos"] := by
    decide +kernel
  obtain ⟨hproject, hlinks, hthere, hstays, hresolved⟩ := hrun
  obtain ⟨project, hget, hpath⟩ := Option.map_eq_some_iff.mp hproject
  obtain ⟨hkept, hremoved⟩ := copies_contain_iff (.empty "/w") .empty
    [(twoRepositories, .fetch (requestFor "r:one" "p"))] "p" twoRepositories (by decide +kernel)
  have hdesk : afterCalls [(twoRepositories, .fetch (requestFor "r:one" "p"))]
      ⟨.empty "/w", [], .empty⟩ = deskWithOwnName := rfl
  rw [hdesk] at hkept hremoved
  -- from here on the desk is not to be computed again
  generalize deskWithOwnName = d at *
  refine ⟨?_, hthere, fun l hl hgone => ?_⟩
  · have hbelow := (hkept project hget).2.mpr hstays
    rw [hpath] at hbelow
    exact hbelow
  · obtain ⟨project', p, hget', hp, -, hafter⟩ := hremoved l hl hgone
    have hsame : project' = project := Option.some.inj (hget'.symm.trans hget)
    rw [hsame, hpath] at hp
    have hstraight : p.linksLeft = linkLimit := by
      rw [hp] at hlinks
      exact Option.some.inj hlinks
    have hprefix := (hafter hstays hstraight).1
    change resolved (Path.join "/w" copies) <+: l at hprefix
    rwa [hresolved] at hprefix

/-- The name `../p` leads out of the directory of all working copies: the project is remembered
there, and removed there. -/
theorem points_lead_out :
    let d := afterCalls [(twoRepositories, .fetch (requestFor "r:one" "../p"))] (Desk.empty "/w")
    d.projects.get? "../p" =
        some ⟨"/w/UserRepos/../p", some ⟨"r:one", "main", none⟩⟩ ∧
      ¬ LiesBelow "/w/UserRepos" "/w/UserRepos/../p" ∧
      (d.files.root.at? ["w", "p"]).isSome = true ∧
      ((intoGraph "../p" twoRepositories d).2.files.root.at? ["w", "p"]).isSome = false := by
  decide +kernel

end CodeAtlas.Repository
