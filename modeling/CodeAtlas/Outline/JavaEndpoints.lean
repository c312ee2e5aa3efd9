import CodeAtlas.Outline.Java

/-!
# Endpoints of Java controllers

A method whose annotations map it to a path is an endpoint. Its path is the path of the mapping
joined to the base path of the last class that begins before the method.
-/

namespace CodeAtlas.Java

open Pattern Outline Text

structure Endpoint where
  name : String
  verbs : List String
  path : String
  result : String
  parameters : List Parameter
  annotations : List String
  deriving DecidableEq, Repr

/-! ## Paths -/

def trimSlashes (path : List Char) : List Char :=
  trimBoth (· == '/') path

/-- Joins a base path and a path by one slash, with a slash in front; what is empty or made of
slashes only is left out. -/
def joinPaths (base path : List Char) : List Char :=
  ([trimSlashes base, trimSlashes path].filter (!·.isEmpty)).flatMap ('/' :: ·)

/-- A text in double quotes; what is between them is group 1. -/
def quoted : Pattern :=
  lit "\"" ++ group 1 (many1 (notAmong "\"")) ++ lit "\""

/-- The places where a path may stand in an annotation, the preferred one first: under `path`, under
`value`, as the only argument, or in the first quotes. -/
def pathPatterns : List Pattern :=
  [lit "path" ++ blanks ++ lit "=" ++ blanks ++ quoted,
    lit "value" ++ blanks ++ lit "=" ++ blanks ++ quoted,
    lit "(" ++ blanks ++ quoted ++ blanks ++ lit ")",
    quoted]

def annotationPath? (note : List Char) : Option (List Char) :=
  (pathPatterns.findSome? fun p => p.find? note).map fun m => trim (m.group 1)

/-- A verb constant; its name is group 1. -/
def verbConstant : Pattern :=
  lit "RequestMethod." ++ group 1 (many1 fun c => isCapital c || c == '_')

def annotationVerb? (note : List Char) : Option (List Char) :=
  (verbConstant.find? note).map (·.group 1)

/-! ## Classes -/

/-- A class with a mapping somewhere before it; its name is group 3. -/
def basePattern : Pattern :=
  lit "@" ++ group 1 (anyOf ["RequestMapping", "Path"]) ++ blanks ++ opt (group 2 arguments) ++
    fewest anyChar ++ lit "class" ++ blanks1 ++ group 3 (many1 isWord)

/-- The base paths of classes by name; of two classes with one name the later counts. -/
def basePaths (code : List Char) : List (List Char × List Char) :=
  ((basePattern.findAll code).map fun m =>
    (m.group 3, (annotationPath? m.text).getD [])).reverse

def classPattern : Pattern :=
  lit "class" ++ blanks1 ++ group 1 (many1 isWord)

/-- The classes of a text with the positions where they begin, in order. -/
def classPositions (code : List Char) : List (List Char × Nat) :=
  (classPattern.findAll code).map fun m => (m.group 1, m.start)

def enclosingClass? (classes : List (List Char × Nat)) (position : Nat) : Option (List Char) :=
  ((classes.takeWhile fun c => c.2 < position).getLast?).map (·.1)

/-- The base path at a position: that of the enclosing class, if it has one. -/
def basePathAt (bases : List (List Char × List Char)) (classes : List (List Char × Nat))
    (position : Nat) : List Char :=
  ((enclosingClass? classes position).bind fun name => bases.lookup name).getD []

/-! ## Methods -/

/-- An annotated method: annotations, result type, name and parameters are groups 1 to 4. -/
def endpointPattern : Pattern :=
  group 1 (again (lit "@" ++ many1 isAsciiWord ++ blanks ++ opt arguments ++ blanks)
      1 none true) ++
    blanks ++ opt (anyOf ["public", "private", "protected"]) ++ blanks ++
    opt (anyOf ["static", "final", "synchronized"]) ++ blanks ++ group 2 (many1 isTypeChar) ++
    blanks1 ++ group 3 (many1 isWord) ++ blanks ++ parenthesised 4

/-- What an annotation says about an endpoint: its verbs and its path. -/
structure Mapping where
  verbs : List String
  path : Option (List Char)
  deriving DecidableEq, Repr

/-- The name of an annotation, if it begins with an ASCII word. -/
def annotationName? (note : List Char) : Option String :=
  ((lit "@" ++ group 1 (many1 isAsciiWord)).matchStart? note).map fun m =>
    String.ofList (m.group 1)

/-- The annotations that map a method to one verb. -/
def verbMappings : List (String × String) :=
  [("GetMapping", "GET"), ("PostMapping", "POST"), ("PutMapping", "PUT"),
    ("DeleteMapping", "DELETE"), ("PatchMapping", "PATCH")]

/-- Whether an annotation's name begins with `Path`. -/
def marksPath (note : List Char) : Bool :=
  "@Path".toList.isPrefixOf note

/-- What one annotation of a method says, given all of them. -/
def mappingOf (annotations : List (List Char)) (note : List Char) : Mapping :=
  match annotationName? note with
  | none => ⟨[], none⟩
  | some name =>
    match verbMappings.lookup name with
    | some verb => ⟨[verb], annotationPath? note⟩
    | none =>
      if name = "RequestMapping" then
        ⟨((annotationVerb? note).map String.ofList).toList, annotationPath? note⟩
      else if ["GET", "POST", "PUT", "DELETE", "PATCH"].contains name then
        -- the path is that of the last path annotation beside it
        ⟨[name], ((annotations.filter marksPath).getLast?).bind annotationPath?⟩
      else if name = "Path" then ⟨[], annotationPath? note⟩
      else ⟨[], none⟩

/-- A mapping that names a verb or a path makes an endpoint. -/
def Mapping.isEndpoint (m : Mapping) : Bool :=
  !m.verbs.isEmpty || m.path.isSome

/-- The endpoints that one annotated method makes: one for each annotation that maps it. The name of
the method stands for its result as well. -/
def endpointsOf (base : List Char) (m : Match) : List Endpoint :=
  let annotations := annotationPattern.collectAll (m.group 1)
  let mappings := (annotations.map (mappingOf annotations)).filter Mapping.isEndpoint
  mappings.map fun mapping =>
    { name := String.ofList (m.group 3)
      verbs := mapping.verbs
      path := String.ofList (joinPaths base (mapping.path.getD []))
      result := String.ofList (m.group 3)
      parameters := parameters (m.group 4)
      annotations := annotations.map String.ofList }

def endpoints (code : List Char) : List Endpoint :=
  let bases := basePaths code
  let classes := classPositions code
  (endpointPattern.findAll code).flatMap fun m => endpointsOf (basePathAt bases classes m.start) m

/-! ## The whole outline -/

structure Outline where
  package : Option String
  imports : List Import
  annotations : List String
  classes : List TypeDeclaration
  interfaces : List TypeDeclaration
  enums : List TypeDeclaration
  records : List TypeDeclaration
  fields : List Field
  constructors : List Constructor
  methods : List Method
  endpoints : List Endpoint
  comments : Comments
  deriving DecidableEq, Repr

def outline (code : List Char) : Outline where
  package := package? code
  imports := imports code
  annotations := annotationsOf code
  classes := types code "class"
  interfaces := types code "interface"
  enums := types code "enum"
  records := types code "record"
  fields := fields code
  constructors := constructors code
  methods := methods code
  endpoints := endpoints code
  comments := comments code

def Endpoint.toJson (e : Endpoint) : Json :=
  .object [("name", .text e.name), ("http_methods", .texts e.verbs), ("path", .text e.path),
    ("return_type", .text e.result), ("parameters", parametersJson e.parameters),
    ("annotations", .texts e.annotations)]

def Outline.jsonFields (o : Outline) : List (String × Json) :=
  [("package", .ofOption o.package), ("imports", .array (o.imports.map Import.toJson)),
    ("annotations", .texts o.annotations),
    ("classes", .array (o.classes.map TypeDeclaration.toJson)),
    ("interfaces", .array (o.interfaces.map TypeDeclaration.toJson)),
    ("enums", .array (o.enums.map TypeDeclaration.toJson)),
    ("records", .array (o.records.map TypeDeclaration.toJson)),
    ("fields", .array (o.fields.map Field.toJson)),
    ("constructors", .array (o.constructors.map Constructor.toJson)),
    ("methods", .array (o.methods.map Method.toJson)),
    ("apis", .array (o.endpoints.map Endpoint.toJson)), ("comments", o.comments.toJson)]

end CodeAtlas.Java
