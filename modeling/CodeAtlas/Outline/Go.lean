import CodeAtlas.Outline.Basic

/-!
# Go outlines

Package, imports, structures, interfaces, functions with and without a receiver, and endpoints.
-/

namespace CodeAtlas.Go

open Pattern Outline Text

/-! ## Package and imports -/

/-- The form in which a package is imported. -/
inductive ImportForm where
  | single
  | grouped
  | aliased (name : String)
  deriving DecidableEq, Repr

structure Import where
  module : String
  form : ImportForm
  deriving DecidableEq, Repr

/-- A package clause; the name is group 1. -/
def packagePattern : Pattern :=
  margin ++ lit "package" ++ blanks1 ++ group 1 (many1 isWord)

def package? (code : List Char) : Option String :=
  (packagePattern.find? code).map fun m => String.ofList (m.group 1)

/-- A text between quotation marks of either kind; what is between them is the group given. -/
def quoted (index : Nat) : Pattern :=
  one (among "'\"") ++ group index (many1 (notAmong "'\"")) ++ one (among "'\"")

/-- An import of one package, which is group 1. -/
def singlePattern : Pattern :=
  lit "import" ++ blanks1 ++ quoted 1

/-- A list of imports in parentheses, which is group 1. -/
def groupPattern : Pattern :=
  lit "import" ++ blanks ++ lit "(" ++ group 1 (many1 (notAmong ")")) ++ lit ")"

/-- A word before a quoted text: they are groups 1 and 2. -/
def aliasPattern : Pattern :=
  group 1 (many1 isWord) ++ blanks1 ++ quoted 2

/-- The imports of a text: the single ones, then those in lists, then every quoted text after a
word, which counts as an alias. -/
def imports (code : List Char) : List Import :=
  ((singlePattern.collect 1 code).map fun m => ⟨String.ofList m, .single⟩) ++
    ((groupPattern.collect 1 code).flatMap fun list =>
      ((quoted 1).collect 1 list).map fun m => ⟨String.ofList m, .grouped⟩) ++
    ((aliasPattern.findAll code).map fun m =>
      ⟨String.ofList (m.group 2), .aliased (String.ofList (m.group 1))⟩)

/-! ## Structures and interfaces -/

structure Field where
  name : String
  type : String
  tag : Option String
  deriving DecidableEq, Repr

structure Struct where
  name : String
  fields : List Field
  deriving DecidableEq, Repr

structure Interface where
  name : String
  methods : List String
  deriving DecidableEq, Repr

/-- A type declared with a body in braces: name and body are groups 1 and 2. -/
def bodyPattern (keyword : String) : Pattern :=
  lit "type" ++ blanks1 ++ group 1 (many1 isWord) ++ blanks1 ++ lit keyword ++ blanks ++
    lit "\x7b" ++ group 2 (fewest anyChar) ++ lit "\x7d"

/-- The field in a line: a name, a type and perhaps a tag of further words. -/
def field? (line : List Char) : Option Field :=
  match words line with
  | name :: type :: tag =>
    some ⟨String.ofList name, String.ofList type,
      if tag.isEmpty then none else some (String.ofList (joinWith [' '] tag))⟩
  | _ => none

def structs (code : List Char) : List Struct :=
  ((bodyPattern "struct").findAll code).map fun m =>
    ⟨String.ofList (m.group 1), (lines (trim (m.group 2))).filterMap field?⟩

def interfaces (code : List Char) : List Interface :=
  ((bodyPattern "interface").findAll code).map fun m =>
    let lines := (lines (trim (m.group 2))).map trim
    ⟨String.ofList (m.group 1), (lines.filter (!·.isEmpty)).map String.ofList⟩

/-! ## Functions -/

structure FunctionEntry where
  name : String
  receiver : Option String
  params : List String
  returns : Option String
  deriving DecidableEq, Repr

/-- The result of a function: a list in parentheses or one type; it is the group given. -/
def resultPart (index : Nat) : Pattern :=
  opt (group index ((lit "(" ++ many (notAmong ")") ++ lit ")") |||
    many1 fun c => isWord c || c == '*' || c == '.'))

/-- A method: receiver, name, parameters and result are groups 1 to 4. -/
def methodPattern : Pattern :=
  lit "func" ++ blanks ++ lit "(" ++ group 1 (many1 (notAmong ")")) ++ lit ")" ++ blanks ++
    group 2 (many1 isWord) ++ blanks ++ parenthesised 3 ++ blanks ++ resultPart 4

/-- A function: name, parameters and result are groups 1 to 3. -/
def functionPattern : Pattern :=
  lit "func" ++ blanks1 ++ group 1 (many1 isWord) ++ blanks ++ parenthesised 2 ++ blanks ++
    resultPart 3

def methods (code : List Char) : List FunctionEntry :=
  (methodPattern.findAll code).map fun m =>
    ⟨String.ofList (m.group 2), some (String.ofList (trim (m.group 1))),
      paramList (m.group 3), (m.group? 4).map fun r => String.ofList (trim r)⟩

/-- A receiver list that opens exactly ten characters before a position, within fifteen
characters. -/
def followsReceiver (code : List Char) (position : Nat) : Bool :=
  10 ≤ position &&
    ((lit "func" ++ blanks ++ lit "(").matchStart? ((code.drop (position - 10)).take 15)).isSome

/-- The functions of a text that have no receiver. -/
def plainFunctions (code : List Char) : List FunctionEntry :=
  ((functionPattern.findAll code).filter fun m => !followsReceiver code m.start).map fun m =>
    ⟨String.ofList (m.group 1), none, paramList (m.group 2),
      (m.group? 3).map fun r => String.ofList (trim r)⟩

/-- The functions of a text, methods first. -/
def functions (code : List Char) : List FunctionEntry :=
  methods code ++ plainFunctions code

/-! ## Endpoints -/

/-- A handler bound to a path. -/
structure Endpoint where
  router : String
  verb : Option String
  path : String
  handler : String
  deriving DecidableEq, Repr

/-- A call that binds a handler: router, verb, path and handler are groups 1 to 4. -/
def endpointPattern (call : Pattern) : Pattern :=
  wordEdge ++ group 1 (many1 isWord) ++ lit "." ++ call ++ blanks ++ lit "(" ++ blanks ++
    quoted 3 ++ blanks ++ lit "," ++ blanks ++ group 4 (many1 (notAmong ")")) ++ lit ")"

def endpointsOf (call : Pattern) (code : List Char) : List Endpoint :=
  ((endpointPattern call).findAll code).map fun m =>
    ⟨String.ofList (m.group 1), (m.group? 2).map String.ofList, String.ofList (m.group 3),
      String.ofList (trim (m.group 4))⟩

/-- The endpoints of a text, by kind of call. -/
def endpoints (code : List Char) : List Endpoint :=
  endpointsOf (lit "HandleFunc") code ++
    endpointsOf (group 2 (anyOf ["GET", "POST", "PUT", "DELETE", "PATCH"])) code ++
    endpointsOf (lit "Handle") code

/-! ## The whole outline -/

structure Outline where
  package : Option String
  imports : List Import
  structs : List Struct
  interfaces : List Interface
  functions : List FunctionEntry
  endpoints : List Endpoint
  deriving DecidableEq, Repr

def outline (code : List Char) : Outline where
  package := package? code
  imports := imports code
  structs := structs code
  interfaces := interfaces code
  functions := functions code
  endpoints := endpoints code

/-! ## JSON values -/

def Import.toJson (i : Import) : Json :=
  .object [("module", .text i.module),
    match i.form with
    | .single => ("type", .text "single")
    | .grouped => ("type", .text "group")
    | .aliased name => ("alias", .text name)]

def Field.toJson (f : Field) : Json :=
  .object [("name", .text f.name), ("type", .text f.type), ("tag", .ofOption f.tag)]

def Struct.toJson (s : Struct) : Json :=
  .object [("name", .text s.name), ("fields", .array (s.fields.map Field.toJson))]

def Interface.toJson (i : Interface) : Json :=
  .object [("name", .text i.name), ("methods", .texts i.methods)]

def FunctionEntry.toJson (f : FunctionEntry) : Json :=
  .object [("name", .text f.name), ("receiver", .ofOption f.receiver), ("params", .texts f.params),
    ("returns", .ofOption f.returns)]

def Endpoint.toJson (e : Endpoint) : Json :=
  .object ([("router", .text e.router)] ++
    (match e.verb with
      | none => []
      | some verb => [("method", .text verb)]) ++
    [("path", .text e.path), ("handler", .text e.handler)])

def Outline.fields (o : Outline) : List (String × Json) :=
  [("package", .ofOption o.package), ("imports", .array (o.imports.map Import.toJson)),
    ("structs", .array (o.structs.map Struct.toJson)),
    ("interfaces", .array (o.interfaces.map Interface.toJson)),
    ("functions", .array (o.functions.map FunctionEntry.toJson)),
    ("endpoints", .array (o.endpoints.map Endpoint.toJson))]

end CodeAtlas.Go
