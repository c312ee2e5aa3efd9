import CodeAtlas.Files.Workspace
import CodeAtlas.Report
import CodeAtlas.Text.Utf8

/-!
# Surveying files

From a path to a report: the language is told by the path, the file is read as text with line ends
unified, and the outline of that language is taken. Files in other languages get the heuristic
outline, or the answer of an assistant where there is one.
-/

namespace CodeAtlas

/-- Why a file has no report. -/
inductive Refusal where
  | file (cause : FileError)
  | undecodable (fault : Text.Utf8.Located)
  /-- The comments of a script in SQL are not found by its outline, and nobody supplied them. -/
  | noComments
  /-- No language was chosen. -/
  | noLanguage
  deriving Repr

def Refusal.message : Refusal → String
  | .file cause => cause.message
  | .undecodable fault => fault.message
  | .noComments => "name 'single_line' is not defined"
  | .noLanguage => "parse_file() must be implemented by subclasses"

namespace Survey

/-- The text of a file, without the bytes that are no text. -/
def readText (w : Workspace) (path : String) : Except FileError (List Char) := do
  let bytes ← w.readFile path
  return Text.unifyNewlines (Text.Utf8.decodeLenient bytes)

/-- A report in a language whose outline never fails. -/
def plain (w : Workspace) (path : String) (language : Language) (find : List Char → Finding) :
    Except Refusal Report := do
  let code ← (readText w path).mapError .file
  return ⟨path, some language.name, find code⟩

/-- A report on a Python file, all of which has to be text. -/
def python (w : Workspace) (path : String) : Except Refusal Report := do
  let bytes ← (w.readFile path).mapError .file
  let code ← (Text.Utf8.decode bytes).mapError .undecodable
  return ⟨path, some Language.python.name,
    match Python.outline (Text.unifyNewlines code) with
    | .ok outline => .python outline
    | .error why => .unparsed why⟩

/-- A report on a TypeScript file, which says itself when the file cannot be read. -/
def typeScript (w : Workspace) (path : String) : Report :=
  ⟨path, some Language.typeScript.name,
    match readText w (Path.normalForm path) with
    | .ok code => .typeScript (TypeScript.outline code)
    | .error cause => .unreadable cause⟩

/-- A report on a script in SQL whose comments are supplied. -/
def sqlWith (w : Workspace) (path : String) (single block : List Json) : Except Refusal Report :=
  plain w path .sql fun code => .sql (Sql.outline code) single block

def inLanguage (w : Workspace) (path : String) : Language → Except Refusal Report
  | .python => python w path
  | .java => plain w path .java fun code => .java (Java.outline code)
  | .javaScript => plain w path .javaScript fun code => .javaScript (JavaScript.outline code)
  | .typeScript => .ok (typeScript w path)
  | .go => plain w path .go fun code => .go (Go.outline code)
  | .ruby => plain w path .ruby fun code => .ruby (Ruby.outline code)
  | .kotlin => plain w path .kotlin fun code => .kotlin (Kotlin.outline code)
  | .rust => plain w path .rust fun code => .rust (Rust.outline code)
  | .cpp => plain w path .cpp fun code => .cpp (Cpp.outline code)
  | .c => plain w path .c fun code => .c (C.outline code)
  | .cSharp => plain w path .cSharp fun code => .cSharp (CSharp.outline code)
  | .php => plain w path .php fun code => .php (Php.outline code)
  | .swift => plain w path .swift fun code => .swift (Swift.outline code)
  | .objectiveC => plain w path .objectiveC fun code => .objectiveC (ObjectiveC.outline code)
  | .sql => do
    let _ ← (readText w path).mapError .file
    .error .noComments

/-- What is found in a text with the help of an assistant's response, if one was asked. -/
def assisted (response : Option Assistant.Response) (code : List Char) : Finding :=
  let outline := Heuristic.outline code
  match response.map Assistant.Response.reading with
  | none => .heuristic outline
  | some (.value v) => .answered v
  | some (.prose reply) => .unclear reply outline
  | some (.failed why) => .unanswered why outline

/-- A report on a file in a language without an outline of its own. If there is an assistant to
help, it is asked about the text of the file. -/
def inOther (w : Workspace) (path : String) (language : Option String)
    (helper : Option Assistant.Helper) : Except Refusal Report := do
  let code ← (readText w path).mapError .file
  let response := helper.map (· (Assistant.request (Assistant.question language code)))
  return ⟨path, language, assisted response code⟩

/-- The name of the language of a path that has no outline of its own. -/
def otherName (path : String) : String :=
  let extension := Path.extension path
  if extension = "" then "unknown" else extension

/-- The report on a file, in the language that its path tells. -/
def report (w : Workspace) (helper : Option Assistant.Helper) (path : String) :
    Except Refusal Report :=
  match Language.detect? path with
  | some language => inLanguage w path language
  | none => inOther w path (some (otherName path)) helper

/-- What an assistant is asked for the report on a file: nothing if the language has an outline. -/
def questions (w : Workspace) (path : String) : List Json :=
  match Language.detect? path, readText w path with
  | none, .ok code => [Assistant.request (Assistant.question (some (otherName path)) code)]
  | _, _ => []

end Survey

end CodeAtlas
