import CodeAtlas.Json.Reader
import CodeAtlas.Outline.Heuristic

/-!
# Asking an assistant

A file in a language without an outline of its own may be given to an assistant, which is asked to
answer with a JSON object. What it answers is read as JSON, as a whole or from its first opening
brace to its last closing one. Whenever that gives nothing, the heuristic outline stands in.
-/

namespace CodeAtlas.Assistant

/-- How the assistant responds to a question. -/
inductive Response where
  /-- An answer, with or without text. -/
  | reply (text : Option String)
  /-- No answer: what kind of failure it was, and its message. -/
  | failure (kind message : String)
  deriving DecidableEq, Repr

/-- Whoever responds to questions about a file. -/
abbrev Helper := Json → Response

/-- Why a response cannot be used at all. -/
inductive Failure where
  | service (kind message : String)
  | noText
  | unreadable (source : List Char) (cause : Json.ReadError)
  deriving Repr

def Failure.kind : Failure → String
  | .service kind _ => kind
  | .noText => "TypeError"
  | .unreadable _ (.deep _) => "RecursionError"
  | .unreadable _ _ => "ValueError"

def Failure.message : Failure → String
  | .service _ message => message
  | .noText => "the JSON object must be str, bytes or bytearray, not NoneType"
  | .unreadable source cause => cause.message source

def Failure.line (f : Failure) : String :=
  if f.message = "" then f.kind else f.kind ++ ": " ++ f.message

/-- What a response comes to. -/
inductive Reading where
  /-- A value. -/
  | value (v : Json)
  /-- Text that is no JSON. -/
  | prose (text : String)
  /-- Nothing to read. -/
  | failed (why : Failure)
  deriving Repr

/-- Two braces with as much as possible between them, as group 1. -/
def bracedPattern : Pattern :=
  .group 1 (.lit "\x7b" ++ .many Pattern.anyChar ++ .lit "\x7d")

/-- The part of a text from its first opening brace to its last closing one, if it is there. -/
def braced (text : List Char) : Option (List Char) :=
  (bracedPattern.find? text).map (·.group 1)

/-- Reads the text of a reply: as a whole, or else its braced part. -/
def readReply (text : String) : Reading :=
  match Json.read text.toList with
  | .ok v => .value v
  | .error (.malformed ..) =>
    match braced text.toList with
    | none => .prose text
    | some inner =>
      match Json.read inner with
      | .ok v => .value v
      | .error (.malformed ..) => .prose text
      | .error e => .failed (.unreadable inner e)
  | .error e => .failed (.unreadable text.toList e)

def Response.reading : Response → Reading
  | .failure kind message => .failed (.service kind message)
  | .reply none => .failed .noText
  | .reply (some text) => readReply text

def model : String := "gemini-2.5-flash"

/-- The question about a file: the language, if it is known by name, and the code. -/
def question (language : Option String) (code : List Char) : String :=
  "\nYou are an expert static code analyzer. Given source code in an unknown language (" ++
    language.getD "None" ++ "), extract meaningful structured information.\n" ++
    "Return ONLY valid JSON with keys (optional when absent):\n" ++
    "- packages (list), file_structure (list), classes (list), functions (list), " ++
    "imports (list), api_endpoints (list), interfaces (list), comments (object)\n" ++
    "If you cannot analyze precisely, return a best-effort JSON; " ++
    "do not include extraneous text.\n" ++
    "\nCode:\n" ++ String.ofList code ++ "\n"

def request (question : String) : Json :=
  .object [("model", .text model),
    ("messages", .array [.object [("role", .text "user"), ("content", .text question)]]),
    ("temperature", .int 0)]

end CodeAtlas.Assistant
