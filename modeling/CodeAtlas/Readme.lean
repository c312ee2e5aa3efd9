import CodeAtlas.Graph
import CodeAtlas.Json.Writer

/-!
# Generated documentation

A description of a project that an assistant writes from its code graph. The assistant tends to wrap
its text in a code fence, which is taken off again.
-/

namespace CodeAtlas.Readme

open Act Pattern

def model : String := "tngtech/deepseek-r1t-chimera:free"

def instructions (project : String) (nodes : List Json) : String :=
  "\nYou are a senior software engineer and technical documentation expert.\n\n" ++
  "Your task is to generate a CLEAN, PROFESSIONAL, and FRAMEWORK-AGNOSTIC\n" ++
  "README.md file using the provided knowledge graph data extracted from source code.\n\n" ++
  "STRICT RULES:\n" ++
  "1. Output ONLY valid GitHub-flavored Markdown.\n" ++
  "2. Do NOT mention specific programming languages or frameworks explicitly.\n" ++
  "3. Do NOT include raw AST data, internal IDs, or database-specific details.\n" ++
  "4. Use clean, relative file paths (remove repository root prefixes).\n" ++
  "5. Do NOT list getters/setters or trivial utility methods.\n" ++
  "6. Summarize functionality based on architectural roles and behavior.\n" ++
  "7. Keep content concise, readable, and suitable for open-source repositories.\n\n" ++
  "README STRUCTURE (MUST FOLLOW EXACTLY):\n\n" ++
  "# " ++ project ++ "\n\n" ++
  "## Overview\n" ++
  "Describe the purpose of the project in 2–3 sentences, focusing on functionality.\n\n" ++
  "## Architecture Overview\n" ++
  "Explain the high-level architectural pattern and separation of concerns.\n\n" ++
  "## Project Structure\n" ++
  "Describe major directories and their responsibilities without listing every file.\n\n" ++
  "## Core Components\n" ++
  "Summarize the responsibilities of key components:\n" ++
  "- Entry point / bootstrap module\n" ++
  "- Controllers / handlers\n" ++
  "- Services / business logic layer\n" ++
  "- Data models\n" ++
  "- Persistence / repositories\n" ++
  "- Test modules\n\n" ++
  "## Application Flow\n" ++
  "Explain how a typical request or operation moves through the system.\n\n" ++
  "## Running the Project\n" ++
  "Provide generic, stack-agnostic steps to run the application.\n\n" ++
  "## Testing\n" ++
  "Describe how tests are organized and their purpose.\n\n" ++
  "## Notes\n" ++
  "Include any important architectural or design observations.\n\n\n" ++
  "INPUT DATA (DO NOT REPEAT THIS IN OUTPUT):\n" ++
  (Json.array nodes).display ++
  "\n\nNow generate the documentation.\n"

def question (project : String) (nodes : List Json) : Json :=
  .object
    [("model", .text model),
      ("messages", .array
        [.object [("role", .text "user"), ("content", .text (instructions project nodes))]]),
      ("extra_body", .object [("reasoning", .object [("enabled", .bool true)])])]

/-- A line that opens a fence around Markdown, or a fence at the end of a line. -/
def fence : Pattern :=
  oneOf [lineStart ++ lit "```markdown\n", lit "```" ++ lineEnd]

/-- A text without its fences and the blanks around it, and with line ends in place of their
escapes. -/
def unwrap (text : List Char) : List Char :=
  let bare := Text.trim (fence.replaceAll (fun _ => []) text)
  Text.joinWith ['\n'] (Text.splitText ['\\', 'n'] bare)

def generate (project : Json) : Act String := do
  let nodes ← Graph.nodes project
  let reply ← ask (question project.phrase nodes)
  match reply with
  | none => fail (.unsearchable Json.null.kindName)
  | some text =>
    let readme := String.ofList (unwrap text.toList)
    print readme
    return readme

/-- Generates the documentation of a project for a client. -/
def serve (project : Json) : Act Json := do
  let readme ← rescue (generate project) fun e =>
    .http 500 ("Failed to generate documenetation with error: " ++ e.message ++ " ")
  return .object
    [("message", .text "Documentation generated successfully"), ("documentation", .text readme),
      ("project", project), ("status", .text "success")]

end CodeAtlas.Readme
