import CodeAtlas.Database
import CodeAtlas.Drawing
import CodeAtlas.Files.Removal
import CodeAtlas.Files.Walk
import CodeAtlas.Json.Writer

/-!
# Repositories

Working copies of repositories and what is done with them: they are cloned or brought up to date,
surveyed file by file, drawn, and finally turned into statements for the graph database, after which
the working copy is removed and its project forgotten.
-/

namespace CodeAtlas.Repository

open Act

/-- The directory of the working copies. -/
def copies : String := "UserRepos"

/-! ## Surveys -/

/-- The reports on files, given how one is made, up to the first that has none, and why it has
none. -/
def reportsOn {α : Type} (report : α → Except Refusal Report) :
    List α → List Report × Option Refusal
  | [] => ([], none)
  | file :: rest =>
    match report file with
    | .error why => ([], some why)
    | .ok made =>
      let (reports, why) := reportsOn report rest
      (made :: reports, why)

/-- The reports on the files below a path, each with its number in the walk. -/
def reportsAt (files : Workspace) (helper : Option (Nat → Assistant.Helper))
    (path : String) : List Report × Option Refusal :=
  reportsOn (fun (file, index) => Survey.report files (helper.map (· index)) file)
    (files.filesAt path).zipIdx

/-- What an assistant is asked in a survey that gets to so many files. -/
def questionsAt (files : Workspace) (path : String) (count : Nat) : List Json :=
  ((files.filesAt path).take count).flatMap (Survey.questions files)

/-- Surveys a project: one report on each file of its working copy. The first file without a report
ends the survey. -/
def survey (name : String) : Act (List Report) := do
  let d ← desk
  let some project := d.projects.get? name | fail (.http 404 "Project not found in UserRepos")
  if !d.files.isDirectory project.path then fail (.http 404 "Repository directory not found")
  let helper := (← services).helper
  let (reports, why) := reportsAt d.files helper project.path
  if helper.isSome then
    note fun r =>
      { r with questions := r.questions ++ questionsAt d.files project.path reports.length }
  print s!"[Parsing Complete] Parsed {reports.length} files in {name}"
  match why with
  | some why => fail (.refusal why)
  | none => return reports

/-- Reports as a JSON value, given the key that stands for arguments without a name. -/
def reportsJson (nameless : String) (reports : List Report) : Json :=
  .array (reports.map (Report.toJson nameless))

/-- The drawing of a working copy, line by line. -/
def structureOf (name : String) : Act (List String) := do
  let path := Path.normalForm (Path.join copies name)
  let files := (← desk).files
  let missing := Failure.http 404 s!"Repository '{name}' not found in UserRepos"
  match files.resolve true path with
  | .ok _ =>
    let drawing ← ofExcept .file (Drawing.draw files path (some name))
    return (Text.lines drawing.toList).map String.ofList
  | .error (.path .denied p) => fail (.file (.path .denied p))
  | .error (.path .nameTooLong p) => fail (.file (.path .nameTooLong p))
  | .error _ => fail missing

/-! ## Cloning -/

/-- What is asked for when a repository is cloned. -/
structure CloneRequest where
  url : String
  branch : String
  token : Option String
  name : String
  deriving DecidableEq, Repr

/-- Makes a directory, if it is not there. -/
def makeDirectories (path : String) : Act Unit := do
  let made ← ofExcept .file ((← desk).files.makeDirectories path)
  change fun d => { d with files := made }

/-- The commands that bring a repository to a path: it is cloned if nothing is there, and otherwise
the working copy there is brought up to date. -/
def commandsFor (files : Workspace) (url path : String) : List CopyCommand :=
  if files.exists? path then [.opening path, .reset path, .clean path, .pull path]
  else [.clone url path]

/-- Has git carry out commands, up to the first that fails. -/
def gitAll : List CopyCommand → Act Unit
  | [] => pure ()
  | c :: rest => do
    git c
    gitAll rest

/-- Clones a repository, or brings its working copy up to date, and remembers its project. The
answer is a message for the client. -/
def fetch (r : CloneRequest) : Act String := do
  let base := Path.join (← desk).files.base copies
  makeDirectories base
  print ("[CloneAgent] Using basePath: " ++ base)
  let path := Path.join base r.name
  let existing ← Database.cloneByUrl (.text r.url)
  rescue (do gitAll (commandsFor (← desk).files r.url path))
    fun e => .http 400 ("Git operation failed: " ++ e.message)
  let isNew := (← access existing.count) == 0
  if isNew then
    let _ ← Database.insertClone (.text r.name) (.text r.url) (.text r.branch) (.ofOption r.token)
  else print "Repo already exists in Supabase, skipping insert."
  change fun d =>
    { d with projects := d.projects.set r.name ⟨path, some ⟨r.url, r.branch, r.token⟩⟩ }
  if isNew then
    print s!"[Memory] Saved {r.name} in user_repo_db"
    return "Project cloned & stored in supabase successfully"
  else return "Project pulled & already exists in Supabase"

/-! ## Graph statements -/

/-- The task for the assistant: statements that put a survey into the graph database. -/
def instructions (project : String) (reports : List Report) : String :=
  let owned := " \x7bproject: \"" ++ project ++ "\"\x7d"
  "\nYou are an expert Neo4j Cypher generator.\n\n" ++
  "Your task is to convert the provided AST JSON into Neo4j Cypher statements\n" ++
  "that strictly follow the schema and rules below.\n\n" ++
  "IMPORTANT RULES (DO NOT VIOLATE):\n" ++
  "1. Output ONLY Cypher statements.\n" ++
  "2. No explanations, no markdown, no comments.\n" ++
  "3. Use ONLY MERGE statements. Never use CREATE.\n" ++
  "4. Every node MUST include a property: project = \"" ++ project ++ "\".\n" ++
  "5. Every relationship MUST include a property: project = \"" ++ project ++ "\".\n" ++
  "6. Do NOT invent property names. Use EXACT names only.\n\n" ++
  "========================\nNODE SCHEMA (STRICT)\n========================\n\n" ++
  "(:File)\n  - filePath\n  - project\n\n" ++
  "(:Class)\n  - name\n  - filePath\n  - project\n\n" ++
  "(:Method)\n  - name\n  - parentClass\n  - filePath\n  - project\n\n" ++
  "========================\nRELATIONSHIPS (STRICT)\n========================\n\n" ++
  "(File)-[:CONTAINS_CLASS" ++ owned ++ "]->(Class)\n" ++
  "(File)-[:CONTAINS_METHOD" ++ owned ++ "]->(Method)\n" ++
  "(Class)-[:HAS_METHOD" ++ owned ++ "]->(Method)\n" ++
  "(Method)-[:CALLS" ++ owned ++ "]->(Method)\n\n" ++
  "========================\nGENERATION RULES\n========================\n\n" ++
  "- For each file in AST_JSON:\n  - MERGE a File node.\n" ++
  "- For each class inside the file:\n  - MERGE a Class node.\n" ++
  "  - MERGE (File)-[:CONTAINS_CLASS]->(Class).\n" ++
  "- For each method inside the class:\n  - MERGE a Method node.\n" ++
  "  - MERGE (Class)-[:HAS_METHOD]->(Method).\n" ++
  "  - MERGE (File)-[:CONTAINS_METHOD]->(Method).\n" ++
  "- For each method call:\n  - MERGE (callerMethod)-[:CALLS]->(calledMethod).\n\n" ++
  "OTHER RULES:\n" ++
  "- Every Cypher statement MUST be on a new line.\n" ++
  "- Do NOT output empty lines.\n" ++
  "- Do NOT output any text outside Cypher.\n" ++
  "- Do NOT wrap the output.\n\n" ++
  "PROJECT = \"" ++ project ++ "\"\n" ++
  "AST_JSON = " ++ (reportsJson "null" reports).render ++ "\n"

def question (project : String) (reports : List Report) : Json :=
  .object
    [("model", .text Assistant.model), ("contents", .text (instructions project reports))]

/-- Lines that are not empty, each one statement for `execute`. -/
def statements (text : List Char) : List (List Char) :=
  (Text.splitAt '\n' text).filter (!·.isEmpty)

/-- Executes statements on the graph database, one after another. -/
def execute : List (List Char) → Act Unit
  | [] => pure ()
  | statement :: rest => do
    let _ ← lookup ⟨String.ofList statement, []⟩
    execute rest

/-- Removes the working copy of a project and forgets the project. -/
def discard (name : String) (project : Project) : Act Unit := do
  print ("Trying to delete: " ++ project.path)
  let (files, why) := (← desk).files.removeTree project.path
  change fun d => { d with files := files }
  match why with
  | none => print ("[Cleanup] Deleted local repo → " ++ project.path)
  | some why => print ("[Cleanup Error] Could not delete repo: " ++ why.message)
  change fun d => { d with projects := d.projects.erase name }
  print s!"[Cleanup] Removed {name} from in-memory DB"

/-- Turns a project into statements, executes them, and discards the project. The answer is the text
of the statements. -/
def intoGraph (name : String) : Act String := do
  let reports ← survey name
  match ← ask (question name reports) with
  | none => fail (.lacks Json.null.kindName "strip")
  | some reply =>
    let text := Text.trim reply.toList
    print (String.ofList text)
    execute (statements text)
    match (← desk).projects.get? name with
    | none => fail (.access (.missing name))
    | some project =>
      discard name project
      return String.ofList text

end CodeAtlas.Repository
