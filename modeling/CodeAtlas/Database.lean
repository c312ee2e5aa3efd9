import CodeAtlas.Services

/-!
# The database

The queries that the program makes: about users, about repositories that were imported or cloned,
and about commits.
-/

namespace CodeAtlas.Database

open Act

/-! ## Commits -/

/-- Stores the files that a commit changed, one row for each. -/
def saveChanges (repository commit files : Json) : Act Json := do
  let rows := (← access files.elements).map fun file =>
    Json.object [("repo_id", repository), ("commit_hash", commit), ("file_path", file),
      ("change_type", .text "modified")]
  query ⟨"changed_files", [.insert (.array rows)]⟩

def insertCommit (repository commit : Json) : Act Json :=
  query ⟨"repo_commits",
    [.insert (.object [("repo_id", repository), ("last_commit", commit)])]⟩

def updateCommit (repository commit : Json) : Act Json :=
  query ⟨"repo_commits",
    [.update (.object [("last_commit", commit)]), .equal "repo_id" repository]⟩

def lastCommit (repository : Json) : Act Json :=
  query ⟨"repo_commits", [.select "*", .equal "repo_id" repository, .single]⟩

/-! ## Cloned repositories -/

/-- Stores a repository that was cloned. -/
def insertClone (name url branch token : Json) : Act Json :=
  query ⟨"repos",
    [.insert (.object [("proj_name", name), ("repo_url", url), ("branch", branch),
      ("auth_token", token)])]⟩

/-- A repository that was cloned from an address. -/
def cloneByUrl (url : Json) : Act Json :=
  query ⟨"repos", [.select "*", .equal "repo_url" url, .limit 1]⟩

/-! ## Imported repositories -/

def importsOf (user owner name : Json) : Act Json :=
  query ⟨"repos", [.select "*", .equal "user_id" user, .equal "owner" owner, .equal "name" name]⟩

def insertImport (user owner name isPrivate : Json) : Act Json :=
  query ⟨"repos",
    [.insert (.object [("user_id", user), ("owner", owner), ("name", name), ("private", isPrivate),
      ("status", .text "IMPORTED")])]⟩

def importById (repository user : Json) : Act Json :=
  query ⟨"repos", [.select "*", .equal "id" repository, .equal "user_id" user, .single]⟩

/-! ## Users -/

/-- Stores a user, or what is new about one: the number and the name are needed, the rest is not. -/
def upsertUser (profile : Json) : Act Json := do
  let id ← access (profile.field "id")
  let name ← access (profile.field "login")
  let other (key : String) : Json := (profile.get? key).getD .null
  query ⟨"users",
    [.upsert (.object [("github_id", id), ("username", name), ("email", other "email"),
      ("avatar_url", other "avatar_url")])]⟩

def userByGitHubId (id : Json) : Act Json :=
  query ⟨"users", [.select "*", .equal "github_id" id, .single]⟩

def userAccess (user : Json) : Act Json :=
  query ⟨"users", [.select "github_id, access_token", .equal "id" user, .single]⟩

end CodeAtlas.Database
