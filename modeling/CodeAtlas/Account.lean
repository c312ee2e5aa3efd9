import CodeAtlas.Database
import CodeAtlas.Json.Writer

/-!
# Accounts

Users log in at GitHub, get a token of this program, and import repositories that they may see
there.
-/

namespace CodeAtlas.Account

open Act

def bearer (token : Json) : List (String × String) :=
  [("Authorization", "Bearer " ++ token.phrase)]

/-! ## Login -/

/-- The address where users log in. -/
def loginUrl (s : Settings) : String :=
  "https://github.com/login/oauth/authorize?client_id=" ++ s.clientId.getD "None" ++
    "&redirect_uri=" ++ s.redirectUri.getD "None" ++ "&scope=repo read:user"

/-- Exchanges the code of a login for a token. -/
def exchange (code : Json) : Act Json := do
  let s := (← services).settings
  let reply ← fetch
    { url := "https://github.com/login/oauth/access_token"
      headers := [("Accept", "application/json")]
      form := some
        [("client_id", .ofOption s.clientId), ("client_secret", .ofOption s.clientSecret),
          ("code", code), ("redirect_uri", .ofOption s.redirectUri)] }
  if !(← access (reply.body.mentions "access_token")) then fail .exchange
  access (reply.body.field "access_token")

def profile (token : Json) : Act Json := do
  return (← fetch ⟨"https://api.github.com/user", bearer token, none⟩).body

/-- What a login gives: the claims of the token that is issued, and the user. -/
structure Login where
  claims : List (String × Json)
  userId : Json
  userName : Json

/-- Completes a login: the user is stored and gets a token. -/
def complete (code : Json) : Act Login :=
  rescue
    (do
      let token ← exchange code
      let profile ← profile token
      let _ ← Database.upsertUser profile
      let user ← Database.userByGitHubId (← access (profile.field "id"))
      let id ← access (user.field "id")
      let gitHubId ← access (user.field "github_id")
      let name ← access (user.field "username")
      return ⟨[("user_id", id), ("github_id", gitHubId), ("github_token", token)], id, name⟩)
    fun e => .http 400 e.message

/-- The claims of the user that a token was issued to. Only a text is a token. -/
def currentUser (token : Json) : Act Json := do
  let invalid := Failure.http 401 "Invalid token"
  let .text token := token | fail invalid
  match Token.holder (← services).now token with
  | .ok claims => return .object claims
  | .error .expired => fail (.http 401 "Token expired")
  | .error .invalid => fail invalid
  | .error (.access why) => fail (.access why)

def claims (token : Json) : Act Json := do
  match token with
  | .text token => return .object (← ofExcept .token (Token.claims (← services).now token))
  | other => fail (.lacks other.kindName "rsplit")

/-! ## Imports -/

/-- What GitHub shows of a repository to the holder of a token; null if it shows nothing. -/
def repository (owner name token : Json) : Act Json := do
  let url := "https://api.github.com/repos/" ++ owner.phrase ++ "/" ++ name.phrase
  let reply ← fetch ⟨url, bearer token, none⟩
  return if reply.status = 200 then reply.body else .null

/-- The owner and the name of a repository: the last two components of its address. -/
def ownerAndName? (url : String) : Option (String × String) :=
  match (Path.components (Path.dropTrailingSlashes url)).reverse with
  | name :: owner :: _ => some (owner, name)
  | _ => none

/-- The owner and the name of the repository at an address, which has to be a text. -/
def ownerAndName (url : Json) : Except Failure (String × String) :=
  match url with
  | .text address =>
    match ownerAndName? address with
    | some found => .ok found
    | none => .error (.access .listEnd)
  | other => .error (.lacks other.kindName "rstrip")

/-- Imports a repository for a user, unless that was done before. -/
def importRepository (url user : Json) : Act Json :=
  rescue
    (do
      let (owner, name) ← ofExcept id (ownerAndName url)
      let account ← Database.userAccess user
      let found ← repository (.text owner) (.text name) (← access (account.field "access_token"))
      if !found.isTruthy then fail (.http 403 "Repo access denied")
      let existing ← Database.importsOf user (.text owner) (.text name)
      if existing.isTruthy then access existing.first
      else
        let isPrivate ← access (found.field "private")
        let inserted ← Database.insertImport user (.text owner) (.text name) isPrivate
        access inserted.first)
    fun e => .http 400 e.message

end CodeAtlas.Account
