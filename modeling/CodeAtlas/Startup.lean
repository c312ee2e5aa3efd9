import CodeAtlas.Settings

/-!
# Starting up

The clients of the services are made when the program starts, from variables of the environment,
which have to be there and not be empty.
-/

namespace CodeAtlas.Startup

inductive Client where
  | graph (uri password : String)
  | database (url key : String)
  deriving DecidableEq, Repr

/-- Why no client was made. -/
inductive Failure where
  | graphVariables
  | databaseVariables
  deriving DecidableEq, Repr

def Failure.message : Failure → String
  | .graphVariables => "Missing variables"
  | .databaseVariables => "Supabase env vars missing"

/-- How a start went: the client, if there is one, and what was printed. -/
structure Outcome where
  client : Except Failure Client
  printed : List String

/-- A variable that is set and not empty. -/
def nonEmpty? (e : Environment) (name : String) : Option String :=
  (e.lookup name).filter (· != "")

/-- Makes the client of the graph database. `refusal` is why it does not let itself be connected to,
if it does not; the client is kept all the same. -/
def graph (e : Environment) (refusal : Option String) : Outcome :=
  let address := (e.lookup "neo4j_url").getD "None"
  match nonEmpty? e "neo4j_url", nonEmpty? e "neo4j_pass" with
  | some uri, some password =>
    let verdict := match refusal with
      | none => "Connection established"
      | some why => "Connection failed: " ++ why
    ⟨.ok (.graph uri password), [address, verdict]⟩
  | _, _ => ⟨.error .graphVariables, [address]⟩

def database (e : Environment) : Outcome :=
  match nonEmpty? e "SUPABASE_URL", nonEmpty? e "SUPABASE_SERVICE_KEY" with
  | some url, some key => ⟨.ok (.database url key), []⟩
  | _, _ => ⟨.error .databaseVariables, []⟩

def Client.toJson : Client → Json
  | .graph uri password => .array [.text "neo4j", .text uri, .texts ["neo4j", password]]
  | .database url key => .texts ["supabase", url, key]

end CodeAtlas.Startup
