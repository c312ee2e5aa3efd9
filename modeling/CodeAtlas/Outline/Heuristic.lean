import CodeAtlas.Outline.Basic

/-!
# Heuristic outlines

For files in a language without rules of its own: declarations that look alike in many languages.
-/

namespace CodeAtlas.Heuristic

open Pattern Outline Text

/-- A route: the verb in capitals and the path. -/
structure Endpoint where
  method : String
  path : String
  deriving DecidableEq, Repr

structure Outline where
  imports : List String
  classes : List String
  functions : List Function
  selectors : List String
  endpoints : List Endpoint
  constants : List String
  deriving DecidableEq, Repr

def isImportChar (c : Char) : Bool :=
  isDottedWord c || c == '*' || c == '\x7b' || c == '\x7d'

def isRequiredChar (c : Char) : Bool :=
  isDottedWord c || c == '-' || c == '/' || c == '@'

/-- The forms of imports, each with the imported name as group 1. -/
def importPatterns : List Pattern :=
  [declares "import" (many1 isImportChar),
    declares "from" (many1 isDottedWord) ++ blanks1 ++ lit "import",
    margin ++ lit "require" ++ blanks ++ opt (lit "(") ++ opt (one (among "'\"")) ++
      group 1 (many1 isRequiredChar),
    bracketed "#include",
    declares "using" (many1 isDottedWord)]

/-- A class or something like one; its name is group 1. -/
def classPattern : Pattern :=
  margin ++ anyOf ["class", "struct", "interface", "module"] ++ blanks1 ++ group 1 capitalName

def isFunctionChar (c : Char) : Bool :=
  isAsciiWord c || c == '<' || c == '>' || c == ':' || c == '.' || c == '-'

/-- A function: its name is group 1, its parameters group 2. -/
def functionPattern : Pattern :=
  margin ++
    oneOf [lit "def", lit "function", lit "fun", lit "fn", lit "pub" ++ blanks1 ++ lit "fn",
      lit "static" ++ blanks1 ++ lit "func", lit "func"] ++
    blanks1 ++ group 1 (many1 isFunctionChar) ++ blanks ++ parenthesised 2

def isSelectorChar (c : Char) : Bool :=
  isAsciiWord c || c == ':' || isBlank c

/-- A method with its result type in parentheses; the selector is group 1. -/
def selectorPattern : Pattern :=
  one (among "+-") ++ blanks ++ lit "(" ++ many (notAmong ")") ++ lit ")" ++ blanks ++
    group 1 (many1 isSelectorChar)

/-- A call such as `.get("/path"`, with the verb in any case; verb and path are groups 1 and 2. -/
def endpointPattern : Pattern :=
  lit "." ++
    group 1 (oneOf (["get", "post", "put", "delete", "patch", "route"].map litAnyCase)) ++ blanks ++
    lit "(" ++ blanks ++ one (among "'\"") ++ group 2 (many1 (notAmong "'\"")) ++ one (among "'\"")

def beginsConstant (c : Char) : Bool :=
  isCapital c || isAsciiDigit c || c == '_'

/-- A constant; its name is group 1. -/
def constantPattern : Pattern :=
  margin ++ anyOf ["const", "#define", "val", "let"] ++ blanks1 ++
    group 1 (one beginsConstant ++ many (fun c => beginsConstant c || c == '-'))

def outline (code : List Char) : Outline :=
  let imports := importPatterns.flatMap fun p => p.collect 1 code
  let selectors := (selectorPattern.collect 1 code).map fun s => String.ofList (trim s)
  { imports := ((imports.filter (!·.isEmpty)).map fun i => String.ofList (trim i)).eraseDups
    classes := (collectTexts classPattern 1 code).eraseDups
    functions := collectFunctions functionPattern code ++ selectors.map fun s => ⟨s, []⟩
    selectors := selectors
    endpoints := (endpointPattern.findAll code).map fun m =>
      ⟨String.ofList (upper (m.group 1)), String.ofList (m.group 2)⟩
    constants := (collectTexts constantPattern 1 code).eraseDups }

def Endpoint.toJson (e : Endpoint) : Json :=
  .object [("method", .text e.method), ("path", .text e.path)]

def Outline.toJson (o : Outline) : Json :=
  .object [("imports", .texts o.imports), ("classes", .texts o.classes),
    ("functions", .array (o.functions.map Function.toJson)), ("objc_methods", .texts o.selectors),
    ("endpoints", .array (o.endpoints.map Endpoint.toJson)), ("constants", .texts o.constants)]

end CodeAtlas.Heuristic
