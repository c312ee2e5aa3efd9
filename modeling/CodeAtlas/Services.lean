import CodeAtlas.Projects
import CodeAtlas.Survey
import CodeAtlas.Token

/-!
# Services

The program works with services outside of it: a database, web addresses, a graph database, an
assistant, and git for the repositories. What they answer, and what git does to the files, is not
decided here, so it is given as `Services`; what they were asked, and what was printed, is kept in a
`Record`.

An `Act` is a step of the program. It looks at the answers of the services, changes the `Desk` — the
files, the projects in memory and the record — and yields a value or fails. What it did to the desk
before it failed stays done.
-/

namespace CodeAtlas

/-! ## Requests -/

inductive QueryStep where
  | select (columns : String)
  | insert (rows : Json)
  | upsert (row : Json)
  | update (columns : Json)
  /-- Only rows with this value in a column. -/
  | equal (column : String) (value : Json)
  | limit (count : Nat)
  /-- Exactly one row. -/
  | single

structure Query where
  table : String
  steps : List QueryStep

def QueryStep.toJson : QueryStep → Json
  | .select columns => .texts ["select", columns]
  | .insert rows => .array [.text "insert", rows]
  | .upsert row => .array [.text "upsert", row]
  | .update columns => .array [.text "update", columns]
  | .equal column value => .array [.text "eq", .text column, value]
  | .limit count => .array [.text "limit", .int count]
  | .single => .texts ["single"]

def Query.toJson (q : Query) : Json :=
  .array (.texts ["table", q.table] :: q.steps.map QueryStep.toJson)

/-- A request to a web address. A request with a form posts it. -/
structure WebRequest where
  url : String
  headers : List (String × String)
  form : Option (List (String × Json))

def WebRequest.toJson (r : WebRequest) : Json :=
  .object <|
    [("method", .text (if r.form.isSome then "POST" else "GET")), ("url", .text r.url),
      ("headers", .object (r.headers.map fun (name, value) => (name, .text value)))] ++
    (r.form.map fun fields => ("data", Json.object fields)).toList

structure WebReply where
  status : Int
  body : Json

/-- A query to the graph database, with its parameters. -/
structure GraphQuery where
  text : String
  parameters : List (String × Json)

/-- A query as a JSON value; blanks in its text count only as far as they divide words. -/
def GraphQuery.toJson (q : GraphQuery) : Json :=
  .object
    [("query", .text (String.ofList (Text.joinWith [' '] (Text.words q.text.toList)))),
      ("params", .object q.parameters)]

/-- What git is asked to do, with the path of the working copy it is about. -/
inductive CopyCommand where
  | clone (url path : String)
  /-- Look for a working copy at a path. -/
  | opening (path : String)
  | reset (path : String)
  | clean (path : String)
  | pull (path : String)
  /-- The names of the files that the last commit changed. -/
  | changes

/-- A command as a JSON value. To look for a working copy is no command of its own. -/
def CopyCommand.toJson? : CopyCommand → Option Json
  | .clone url path => some (.texts ["clone", url, path])
  | .opening _ => none
  | .reset _ => some (.texts ["reset", "--hard"])
  | .clean _ => some (.texts ["clean", "-fd"])
  | .pull path => some (.texts ["pull", path])
  | .changes => some (.texts ["diff", "--name-only", "HEAD~1", "HEAD"])

/-! ## Failures -/

/-- Why an act fails. -/
inductive Failure where
  /-- A service failed. -/
  | service (message : String)
  /-- The request of a client is turned down. -/
  | http (status : Nat) (detail : String)
  | file (cause : FileError)
  | refusal (why : Refusal)
  | access (why : Json.AccessError)
  | token (flaw : Token.Flaw)
  /-- A code was not exchanged for a token. -/
  | exchange
  /-- A value that should be searched is no text. -/
  | unsearchable (kind : String)
  /-- A value of a kind that lacks an operation. -/
  | lacks (kind operation : String)
  deriving Repr

def Failure.message : Failure → String
  | .service message => message
  | .http status detail => s!"{status}: {detail}"
  | .file cause => cause.message
  | .refusal why => why.message
  | .access why => why.message
  | .token flaw => flaw.message
  | .exchange => "GitHub token exchange failed"
  | .unsearchable kind => s!"expected string or bytes-like object, got '{kind}'"
  | .lacks kind operation => s!"'{kind}' object has no attribute '{operation}'"

/-! ## The desk -/

/-- What the services answer. The first number says how many requests of the kind came before. -/
structure Services where
  database : Nat → Query → Except String Json
  web : Nat → WebRequest → Except String WebReply
  graph : Nat → GraphQuery → Except String (List Json)
  assistant : Assistant.Response
  /-- Who is asked about a file in a language without an outline, if there is anybody. The number
  says how many files of the survey came before. -/
  helper : Option (Nat → Assistant.Helper)
  /-- What git does: how a command ends, and the root of the file system afterwards. -/
  git : CopyCommand → Workspace → Except String Unit × Node
  /-- The names of the files that the last commit changed. -/
  changes : String
  settings : Settings
  /-- The time, in seconds. -/
  now : Int

/-- What the services were asked, and what was printed. -/
structure Record where
  queries : List Query
  requests : List WebRequest
  lookups : List GraphQuery
  questions : List Json
  commands : List CopyCommand
  printed : String

def Record.empty : Record :=
  ⟨[], [], [], [], [], ""⟩

/-- The files, the projects in memory and the record. -/
structure Desk where
  files : Workspace
  projects : Projects
  record : Record

def Desk.empty (base : String) : Desk :=
  ⟨.empty base, [], .empty⟩

/-- A step of the program. -/
def Act (α : Type) : Type :=
  Services → Desk → Except Failure α × Desk

namespace Act

instance : Monad Act where
  pure a := fun _ d => (.ok a, d)
  bind p f := fun services d =>
    match p services d with
    | (.ok a, d) => f a services d
    | (.error e, d) => (.error e, d)

variable {α : Type}

def fail (f : Failure) : Act α :=
  fun _ d => (.error f, d)

def ofExcept {ε : Type} (cause : ε → Failure) (result : Except ε α) : Act α :=
  fun _ d => (result.mapError cause, d)

/-- The value of an access, or its failure. -/
def access (result : Except Json.AccessError α) : Act α :=
  ofExcept .access result

def services : Act Services :=
  fun s d => (.ok s, d)

def desk : Act Desk :=
  fun _ d => (.ok d, d)

def change (f : Desk → Desk) : Act Unit :=
  fun _ d => (.ok (), f d)

def note (f : Record → Record) : Act Unit :=
  change fun d => { d with record := f d.record }

def print (line : String) : Act Unit :=
  note fun r => { r with printed := r.printed ++ line ++ "\n" }

/-- Runs an act and answers a failure with another. -/
def rescue (p : Act α) (handle : Failure → Failure) : Act α :=
  fun services d =>
    match p services d with
    | (.ok a, d) => (.ok a, d)
    | (.error e, d) => (.error (handle e), d)

/-- Notes a query down and answers it by the `database`, told how many came before. -/
def query (q : Query) : Act Json := do
  let before := (← desk).record.queries.length
  note fun r => { r with queries := r.queries ++ [q] }
  ofExcept .service ((← services).database before q)

def fetch (q : WebRequest) : Act WebReply := do
  let before := (← desk).record.requests.length
  note fun r => { r with requests := r.requests ++ [q] }
  ofExcept .service ((← services).web before q)

/-- As `query`, for the graph database. -/
def lookup (q : GraphQuery) : Act (List Json) := do
  let before := (← desk).record.lookups.length
  note fun r => { r with lookups := r.lookups ++ [q] }
  ofExcept .service ((← services).graph before q)

/-- Notes a question down; the `assistant` answers or ends the act. -/
def ask (question : Json) : Act (Option String) := do
  note fun r => { r with questions := r.questions ++ [question] }
  match (← services).assistant with
  | .reply text => return text
  | .failure _ message => fail (.service message)

/-- Writes down a command about a working copy. -/
def command (c : CopyCommand) : Act Unit :=
  note fun r => { r with commands := r.commands ++ [c] }

/-- Has git carry out a command. What it did to the files stays done if it fails. -/
def git (c : CopyCommand) : Act Unit := do
  command c
  let (outcome, root) := (← services).git c (← desk).files
  change fun d => { d with files := { d.files with root := root } }
  ofExcept .service outcome

end Act

end CodeAtlas
