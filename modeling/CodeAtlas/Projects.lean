import CodeAtlas.Json.Basic

/-!
# Projects in memory

Which projects are known, by name: where their files are and, for those that were cloned, where they
come from.
-/

namespace CodeAtlas

/-- Where a project was cloned from. -/
structure Source where
  url : String
  branch : String
  token : Option String
  deriving DecidableEq, Repr

/-- A project: the path of its files, and its source if it was cloned. -/
structure Project where
  path : String
  source : Option Source
  deriving DecidableEq, Repr

/-- The known projects by name, in the order in which the names became known. -/
abbrev Projects := List (String × Project)

def Project.toJson (p : Project) : Json :=
  .object <|
    ("local_path", .text p.path) ::
      match p.source with
      | none => []
      | some s =>
        [("repo_url", .text s.url), ("branch", .text s.branch), ("auth_token", .ofOption s.token)]

namespace Projects

/-- What is held under a name; `set` replaces it in its place, `erase` takes it out. -/
def get? (ps : Projects) (name : String) : Option Project :=
  ps.lookup name

def set (ps : Projects) (name : String) (p : Project) : Projects :=
  Json.setField ps name p

def erase (ps : Projects) (name : String) : Projects :=
  ps.filter (·.1 != name)

def toJson (ps : Projects) : Json :=
  .object (ps.map fun (name, p) => (name, p.toJson))

end Projects

end CodeAtlas
