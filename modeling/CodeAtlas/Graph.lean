import CodeAtlas.Services

/-!
# The code graph

Files, classes and methods of a project as nodes of a graph: a file contains classes, a class has
methods, and a method calls others.
-/

namespace CodeAtlas.Graph

open Act

/-- What is asked about a project. -/
inductive Question where
  | files
  | classes (file : Json)
  | methods (className : Json)
  | calls (className method : Json)

/-- The query that asks a question. -/
def Question.query (project : Json) : Question → GraphQuery
  | files => ⟨"MATCH (f:File\x7bproject:$project\x7d) return f", [("project", project)]⟩
  | classes file =>
    ⟨"\n            MATCH (c:Class \x7bfilePath: $file, project: $project\x7d)\n" ++
        "            RETURN c\n            ",
      [("file", file), ("project", project)]⟩
  | methods className =>
    ⟨"\n            MATCH (m:Method \x7bparentClass: $class_name, project: $project\x7d)\n" ++
        "            RETURN m\n            ",
      [("class_name", className), ("project", project)]⟩
  | calls className method =>
    ⟨"\n        MATCH (m:Method \x7bname: $method, parentClass: $parentClass, " ++
        "project: $project\x7d)\n        MATCH (m)-[:CALLS]->(target:Method)\n" ++
        "        RETURN target\n        ",
      [("method", method), ("parentClass", className), ("project", project)]⟩

/-- The files of a project. -/
def files (project : Json) : Act (List Json) :=
  lookup (Question.files.query project)

/-- The classes in a file. -/
def classes (project file : Json) : Act (List Json) :=
  lookup ((Question.classes file).query project)

/-- The methods of a class. -/
def methods (project className : Json) : Act (List Json) :=
  lookup ((Question.methods className).query project)

/-- What a method of a class calls. -/
def calls (project className method : Json) : Act (List Json) :=
  lookup ((Question.calls className method).query project)

/-- What a method calls, given the class it is of. -/
def belowMethod (project className method : Json) : Act (List Json) := do
  calls project className (← access (method.field "name"))

/-- The methods of a class and what they call. -/
def belowClass (project cls : Json) : Act (List Json) := do
  let name ← access (cls.field "name")
  let found ← methods project name
  return found ++ (← found.mapM (belowMethod project name)).flatten

/-- The classes of a file, and what lies below each of them. -/
def belowFile (project file : Json) : Act (List Json) := do
  let path ← access (file.field "filePath")
  let found ← classes project path
  return found ++ (← found.mapM (belowClass project)).flatten

/-- All nodes of a project: its files, and then what lies below each of them. -/
def nodes (project : Json) : Act (List Json) := do
  let found ← files project
  return found ++ (← found.mapM (belowFile project)).flatten

/-! ## A graph in memory -/

/-- The nodes of a graph by kind, with the calls between methods. -/
structure Store where
  files : List Json
  classes : List Json
  methods : List Json
  calls : List Json

/-- Whether fields of a node have the values of parameters; a field that is not there counts as
null. -/
def hasAll (wanted : List (String × Option Json)) (node : Json) : Bool :=
  wanted.all fun (key, value) => ((node.get? key).getD .null).same (value.getD .null)

/-- What a graph in memory answers. Which nodes are meant is told by the parameters. -/
def Store.answer (s : Store) (q : GraphQuery) : List Json :=
  let parameter (key : String) : Option Json := q.parameters.lookup key
  match q.parameters.map Prod.fst with
  | ["project"] => s.files.filter (hasAll [("project", parameter "project")])
  | ["file", "project"] =>
    s.classes.filter
      (hasAll [("filePath", parameter "file"), ("project", parameter "project")])
  | ["class_name", "project"] =>
    s.methods.filter
      (hasAll [("parentClass", parameter "class_name"), ("project", parameter "project")])
  | ["method", "parentClass", "project"] =>
    (s.calls.filter (hasAll [("caller", parameter "method"),
      ("callerClass", parameter "parentClass"), ("project", parameter "project")])).map
      fun call => (call.get? "target").getD .null
  | _ => []

end CodeAtlas.Graph
