import CodeAtlas.Json.Basic

/-!
# Settings

What the environment decides, and the secret that tokens are signed with.
-/

namespace CodeAtlas

/-- The variables of the environment that are set. -/
abbrev Environment := List (String × String)

structure Settings where
  clientId : Option String
  clientSecret : Option String
  redirectUri : Option String
  deriving DecidableEq, Repr

namespace Settings

def tokenSecret : String := "magic"

def tokenAlgorithm : String := "HS256"

def ofEnvironment (e : Environment) : Settings where
  clientId := e.lookup "GITHUB_CLIENT_ID"
  clientSecret := e.lookup "GITHUB_CLIENT_SECRET"
  redirectUri := e.lookup "GITHUB_REDIRECT_URI"

def fields (s : Settings) : List (String × Json) :=
  [("GITHUB_CLIENT_ID", .ofOption s.clientId), ("GITHUB_CLIENT_SECRET", .ofOption s.clientSecret),
    ("GITHUB_REDIRECT_URI", .ofOption s.redirectUri), ("JWT_SECRET", .text tokenSecret),
    ("JWT_ALGORITHM", .text tokenAlgorithm)]

end Settings

end CodeAtlas
