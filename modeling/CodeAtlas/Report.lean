import CodeAtlas.Assistant
import CodeAtlas.Files.Error
import CodeAtlas.Language
import CodeAtlas.Outline.C
import CodeAtlas.Outline.CSharp
import CodeAtlas.Outline.Cpp
import CodeAtlas.Outline.Go
import CodeAtlas.Outline.JavaEndpoints
import CodeAtlas.Outline.JavaScript
import CodeAtlas.Outline.Kotlin
import CodeAtlas.Outline.ObjectiveC
import CodeAtlas.Outline.Php
import CodeAtlas.Outline.Python
import CodeAtlas.Outline.Ruby
import CodeAtlas.Outline.Rust
import CodeAtlas.Outline.Sql
import CodeAtlas.Outline.Swift
import CodeAtlas.Outline.TypeScript

/-!
# Reports

What is known about one file: its path, its language and what was found in it.
-/

namespace CodeAtlas

/-- What was found in a file. -/
inductive Finding where
  | python (outline : Python.Outline)
  /-- The file is no Python module. -/
  | unparsed (why : Script.ReadError)
  | java (outline : Java.Outline)
  | javaScript (outline : JavaScript.Outline)
  | typeScript (outline : TypeScript.Outline)
  | go (outline : Go.Outline)
  | ruby (outline : Ruby.Outline)
  | kotlin (outline : Kotlin.Outline)
  | rust (outline : Rust.Outline)
  | cpp (outline : Cpp.Outline)
  | c (outline : C.Outline)
  | cSharp (outline : CSharp.Outline)
  | php (outline : Php.Outline)
  | swift (outline : Swift.Outline)
  | objectiveC (outline : ObjectiveC.Outline)
  /-- Comments of a script in SQL are supplied from outside. -/
  | sql (outline : Sql.Outline) (single block : List Json)
  /-- The file could not be read. -/
  | unreadable (cause : FileError)
  /-- Nobody was asked. -/
  | heuristic (outline : Heuristic.Outline)
  /-- The assistant answered with a value. -/
  | answered (value : Json)
  /-- The assistant answered with something else. -/
  | unclear (reply : String) (outline : Heuristic.Outline)
  /-- The assistant did not answer. -/
  | unanswered (why : Assistant.Failure) (outline : Heuristic.Outline)

/-- What is known about one file. -/
structure Report where
  file : String
  language : Option String
  finding : Finding

namespace Finding

/-- The status of a finding that an assistant could have helped with. -/
def status? : Finding → Option String
  | .heuristic _ => some "heuristic"
  | .answered _ => some "llm"
  | .unclear _ _ => some "llm_error_fallback"
  | .unanswered _ _ => some "llm_exception_fallback"
  | _ => none

/-- The finding as the fields of a JSON object, given the key that stands for arguments without a
name. -/
def fields (nameless : String) : Finding → List (String × Json)
  | .python o => o.fields nameless
  | .unparsed why => [("error", .text why.message)]
  | .java o => o.jsonFields
  | .javaScript o => o.fields
  | .typeScript o => o.fields
  | .go o => o.fields
  | .ruby o => o.fields
  | .kotlin o => o.fields
  | .rust o => o.fields
  | .cpp o => o.fields
  | .c o => o.fields
  | .cSharp o => o.fields
  | .php o => o.fields
  | .swift o => o.fields
  | .objectiveC o => o.fields
  | .sql o single block => o.fields single block
  | .unreadable cause => [("error", .text ("could not read file: " ++ cause.message))]
  | .heuristic o => [("heuristic", o.toJson)]
  | .answered v => [("parsed", v)]
  | .unclear reply o => [("raw_llm", .text reply), ("heuristic", o.toJson)]
  | .unanswered why o =>
    [("error", .text why.message), ("traceback", .text why.line), ("heuristic", o.toJson)]

end Finding

/-- A report as a JSON value, given the key that stands for arguments without a name. -/
def Report.toJson (nameless : String) (r : Report) : Json :=
  .object <|
    (r.finding.status?.map fun s => ("status", Json.text s)).toList ++
      [("file", .text r.file), ("language", .ofOption r.language)] ++ r.finding.fields nameless

end CodeAtlas
