import CodeAtlas.Outline.Basic

/-!
# JavaScript outlines

Imports, exports, functions, classes, components, routes and calls of remote services, with the
documentation comment that stands directly before a function.
-/

namespace CodeAtlas.JavaScript

open Pattern Outline Text

/-! ## Imports -/

/-- An imported module. `required` marks a module bound by a call of `require`. -/
structure Import where
  module : String
  default : Option String
  named : List String
  namespaceName : Option String
  sideEffect : Bool
  required : Bool
  deriving DecidableEq, Repr

def isQuote (c : Char) : Bool :=
  c == '\'' || c == '"'

/-- A text between quotation marks of either kind; what is between them is the group given. -/
def quoted (index : Nat) : Pattern :=
  one isQuote ++ group index (many1 fun c => !isQuote c) ++ one isQuote

/-- An import for its effect only; the module is group 1. -/
def sideEffectPattern : Pattern :=
  lit "import" ++ blanks1 ++ quoted 1

/-- An import of something from a module: what and whence are groups 1 and 2. -/
def fromPattern : Pattern :=
  lit "import" ++ blanks1 ++ group 1 (span (notAmong ";") 1 none false) ++ blanks1 ++ lit "from" ++
    blanks1 ++ quoted 2

/-- A variable bound to a required module: name and module are groups 1 and 2. -/
def requirePattern : Pattern :=
  anyOf ["const", "let", "var"] ++ blanks1 ++ group 1 (many1 isWord) ++ blanks ++ lit "=" ++
    blanks ++ lit "require(" ++ quoted 2 ++ lit ")"

def bracedNames (text : List Char) : List String :=
  paramList (trimBoth (among "\x7b\x7d ") text)

/-- What an import binds, from the text between `import` and `from`. -/
def importOf (module what : List Char) : Import :=
  let base : Import := ⟨String.ofList module, none, [], none, false, false⟩
  if beginsWith ['\x7b'] what then { base with named := bracedNames what }
  else if beginsWith "* as".toList what then
    { base with namespaceName := some (String.ofList (trim (what.drop 4))) }
  else if what.contains ',' then
    let default := trim (what.takeWhile (· != ','))
    let others := trim ((what.dropWhile (· != ',')).drop 1)
    { base with
      default := some (String.ofList default)
      named := if beginsWith ['\x7b'] others then bracedNames others else [] }
  else { base with default := some (String.ofList what) }

/-- The imports of a text: first those for their effect, then those of something, then the required
modules. -/
def imports (code : List Char) : List Import :=
  ((sideEffectPattern.collect 1 code).map fun m =>
      ⟨String.ofList m, none, [], none, true, false⟩) ++
    ((fromPattern.findAll code).map fun m => importOf (m.group 2) (trim (m.group 1))) ++
    ((requirePattern.findAll code).map fun m =>
      ⟨String.ofList (m.group 2), some (String.ofList (m.group 1)), [], none, false, true⟩)

/-! ## Exports -/

structure Exports where
  named : List String
  default : Option String
  assigned : List String
  deriving DecidableEq, Repr

/-- The default export; the name is group 1. -/
def defaultExportPattern : Pattern :=
  lit "export" ++ blanks1 ++ lit "default" ++ blanks1 ++
    group 1 (many1 fun c => isAsciiWord c || c == '$' || c == '.')

/-- An exported declaration; the name is group 1. -/
def namedExportPattern : Pattern :=
  lit "export" ++ blanks1 ++ anyOf ["const", "let", "var", "function", "class"] ++ blanks1 ++
    group 1 (many1 isAsciiWord)

/-- A list of exports in braces, which is group 1. -/
def exportListPattern : Pattern :=
  lit "export" ++ blanks ++ lit "\x7b" ++ group 1 (many1 (notAmong "\x7d")) ++ lit "\x7d"

/-- An assignment to the exports of the module; the value is group 1. -/
def assignedExportPattern : Pattern :=
  lit "module.exports" ++ blanks ++ lit "=" ++ blanks ++ group 1 (many1 (notAmong ";\n"))

/-- The name under which an item of a list is exported: what follows its last `as`. -/
def exportedName (item : List Char) : List Char :=
  (splitText " as ".toList item).getLastD []

def exports (code : List Char) : Exports where
  named :=
    collectTexts namedExportPattern 1 code ++
      (exportListPattern.collect 1 code).flatMap fun list =>
        (commaList list).map fun item => String.ofList (exportedName item)
  default := (defaultExportPattern.find? code).map fun m => String.ofList (m.group 1)
  assigned := (assignedExportPattern.collect 1 code).map fun v => String.ofList (trim v)

/-! ## Functions -/

structure FunctionEntry where
  name : String
  params : List String
  async : Bool
  exported : Bool
  arrow : Bool
  doc : Option String
  deriving DecidableEq, Repr

/-- A documentation comment followed by nothing but white space to the end. -/
def finalDocPattern : Pattern :=
  blockComment "/**" ++ blanks ++ textEnd

/-- The part of a text from `start` up to `stop`; a negative `stop` counts from the end. -/
def slice (code : List Char) (start stop : Int) : List Char :=
  let stop' := if stop < 0 then code.length + stop else stop
  (code.take stop'.toNat).drop start.toNat

/-- The documentation comment that ends before a position with only white space between, looked for
in the thousand characters before it. -/
def docBefore? (code : List Char) (position : Int) : Option String :=
  (finalDocPattern.find? (slice code (max 0 (position - 1000)) position)).map fun m =>
    String.ofList (trim m.text)

/-- A declared function: export, async, name and parameters are groups 1 to 4. -/
def functionPattern : Pattern :=
  opt (group 1 (lit "export" ++ blanks1)) ++ opt (group 2 (lit "async" ++ blanks1)) ++
    lit "function" ++ blanks1 ++ group 3 (many1 isWord) ++ blanks ++ parenthesised 4

/-- The start of a function bound to a variable, up to its arrow: export, keyword, name and async
are groups 1 to 4. -/
def arrowPattern : Pattern :=
  opt (group 1 (lit "export" ++ blanks1)) ++ group 2 (anyOf ["const", "let", "var"]) ++ blanks1 ++
    group 3 (many1 isWord) ++ blanks ++ lit "=" ++ blanks ++
    opt (group 4 (lit "async" ++ blanks1)) ++ opt (lit "(") ++ group 5 (many (notAmong "=")) ++
    opt (lit ")") ++ blanks ++ lit "=>"

/-- Parameters before an arrow, which are group 1. -/
def arrowParamsPattern : Pattern :=
  lit "(" ++ blanks ++ group 1 (many (notAmong ")")) ++ lit ")" ++ blanks ++ lit "=>"

def declaredFunctions (code : List Char) : List FunctionEntry :=
  (functionPattern.findAll code).map fun m =>
    ⟨String.ofList (m.group 3), paramList (m.group 4), (m.group? 2).isSome, (m.group? 1).isSome,
      false, docBefore? code m.start⟩

/-- The functions of a text that are bound to variables. The parameters are the first that stand
before an arrow, up to two hundred characters beyond the function's own. -/
def arrowFunctions (code : List Char) : List FunctionEntry :=
  (arrowPattern.findAll code).map fun m =>
    let nearby := m.source.take (m.stop + 200 - m.start)
    let params := ((arrowParamsPattern.find? nearby).map fun p => paramList (p.group 1)).getD []
    ⟨String.ofList (m.group 3), params, (m.group? 4).isSome, (m.group? 1).isSome, true,
      docBefore? code m.start⟩

/-- The functions of a text, the declared ones first. -/
def functions (code : List Char) : List FunctionEntry :=
  declaredFunctions code ++ arrowFunctions code

/-! ## Classes and components -/

structure Class where
  name : String
  parent : Option String
  deriving DecidableEq, Repr

/-- A class: its name and its parent are groups 1 and 2. -/
def classPattern : Pattern :=
  lit "class" ++ blanks1 ++ group 1 (many1 isWord) ++
    opt (blanks1 ++ lit "extends" ++ blanks1 ++ group 2 (many1 isDottedWord))

def classes (code : List Char) : List Class :=
  (classPattern.findAll code).map fun m =>
    ⟨String.ofList (m.group 1), (m.group? 2).map String.ofList⟩

/-- A component of a user interface. -/
inductive Component where
  | ofClass (name base : String)
  | ofFunction (name : String) (params : List String)
  | ofArrow (name : String)
  deriving DecidableEq, Repr

/-- A class with a parent: name and parent are groups 1 and 2. -/
def derivedClassPattern : Pattern :=
  lit "class" ++ blanks1 ++ group 1 (many1 isWord) ++ blanks1 ++ lit "extends" ++ blanks1 ++
    group 2 (many1 isDottedWord)

/-- A function with a capital name: name and parameters are groups 1 and 2. -/
def capitalFunctionPattern : Pattern :=
  lit "function" ++ blanks1 ++ group 1 capitalWord ++ blanks ++ parenthesised 2

/-- A variable with a capital name bound to a function; the name is group 2. -/
def capitalArrowPattern : Pattern :=
  group 1 (anyOf ["const", "let", "var"]) ++ blanks1 ++ group 2 capitalWord ++ blanks ++ lit "=" ++
    blanks ++ opt (lit "(") ++ group 3 (many (notAmong "=")) ++ opt (lit ")") ++ blanks ++ lit "=>"

def returnsMarkup : Pattern :=
  lit "return" ++ blanks ++ lit "<"

/-- Markup that is returned or stands after an arrow. -/
def yieldsMarkup : Pattern :=
  (lit "=>" ++ blanks ++ lit "<") ||| returnsMarkup

/-- Whether a pattern matches in the four hundred characters after a match. -/
def followedBy (p : Pattern) (m : Match) : Bool :=
  (p.find? ((m.source.drop (m.stop - m.start)).take 400)).isSome

def components (code : List Char) : List Component :=
  ((derivedClassPattern.findAll code).filterMap fun m =>
      if "Component".toList.isSuffixOf (m.group 2) then
        some (.ofClass (String.ofList (m.group 1)) (String.ofList (m.group 2)))
      else none) ++
    ((capitalFunctionPattern.findAll code).filterMap fun m =>
      if followedBy returnsMarkup m then
        some (.ofFunction (String.ofList (m.group 1)) (paramList (m.group 2)))
      else none) ++
    ((capitalArrowPattern.findAll code).filterMap fun m =>
      if followedBy yieldsMarkup m then some (.ofArrow (String.ofList (m.group 2))) else none)

/-! ## Routes and calls -/

structure Route where
  owner : String
  verb : String
  path : String
  handlers : List String
  deriving DecidableEq, Repr

/-- A route: owner, verb, quotation mark, path and handlers are groups 1 to 5. -/
def routePattern : Pattern :=
  group 1 (many1 isWord) ++ lit "." ++
    group 2 (anyOf ["get", "post", "put", "delete", "patch", "use"]) ++ blanks ++ lit "(" ++
    blanks ++ group 3 (one isQuote) ++ group 4 (many fun c => !isQuote c) ++ same 3 ++ blanks ++
    lit "," ++ blanks ++ group 5 (many (notAmong ")")) ++ lit ")"

/-- A comma before a word or a parenthesis. -/
def handlerSeparator : Pattern :=
  lit "," ++ blanks ++ ahead (one fun c => isWord c || c == '(')

def handlerList (text : List Char) : List String :=
  (((handlerSeparator.split text).map trim).filter (!·.isEmpty)).map String.ofList

def routes (code : List Char) : List Route :=
  (routePattern.findAll code).map fun m =>
    ⟨String.ofList (m.group 1), String.ofList (upper (m.group 2)), String.ofList (m.group 4),
      handlerList (m.group 5)⟩

structure RemoteCall where
  client : String
  verb : String
  url : String
  options : Option String
  deriving DecidableEq, Repr

/-- A call of the `axios` client: verb, address and options are groups 1 to 3. -/
def axiosPattern : Pattern :=
  lit "axios." ++ group 1 (anyOf ["get", "post", "put", "delete", "patch", "request"]) ++ blanks ++
    lit "(" ++ blanks ++ group 2 (many1 (notAmong ",)")) ++
    opt (lit "," ++ blanks ++ group 3 (many1 (notAmong ")"))) ++ lit ")"

/-- A call of `fetch`: address and options are groups 1 and 2. -/
def fetchPattern : Pattern :=
  lit "fetch" ++ blanks ++ lit "(" ++ blanks ++ group 1 (many1 (notAmong ",)")) ++
    opt (lit "," ++ blanks ++ group 2 (lit "\x7b" ++ many (notAmong ")") ++ lit "\x7d")) ++ lit ")"

/-- The verb among the options of a call, in any case; it is group 1. -/
def verbOptionPattern : Pattern :=
  litAnyCase "method" ++ blanks ++ lit ":" ++ blanks ++ one isQuote ++
    group 1 (oneOf (["GET", "POST", "PUT", "DELETE", "PATCH"].map litAnyCase)) ++ one isQuote

def remoteCalls (code : List Char) : List RemoteCall :=
  ((axiosPattern.findAll code).map fun m =>
      ⟨"axios", String.ofList (upper (m.group 1)), String.ofList (trim (m.group 2)),
        (m.group? 3).map fun o => String.ofList (trim o)⟩) ++
    ((fetchPattern.findAll code).map fun m =>
      let options := m.group? 2
      let verb := (options.bind verbOptionPattern.find?).map fun v =>
        String.ofList (upper (v.group 1))
      ⟨"fetch", verb.getD "GET", String.ofList (trim (m.group 1)), options.map String.ofList⟩)

/-! ## Comments and the whole outline -/

structure Comments where
  single : List String
  multi : List String
  deriving DecidableEq, Repr

def comments (code : List Char) : Comments :=
  ⟨collectWhole (lineComment "//") code, collectWhole (blockComment "/*") code⟩

structure Outline where
  imports : List Import
  exports : Exports
  classes : List Class
  functions : List FunctionEntry
  components : List Component
  routes : List Route
  remoteCalls : List RemoteCall
  docs : List String
  comments : Comments
  deriving DecidableEq, Repr

def outline (code : List Char) : Outline where
  imports := imports code
  exports := exports code
  classes := classes code
  functions := functions code
  components := components code
  routes := routes code
  remoteCalls := remoteCalls code
  docs := collectWhole (blockComment "/**") code
  comments := comments code

/-! ## JSON values -/

def Import.toJson (i : Import) : Json :=
  .object ([("module", .text i.module), ("default", .ofOption i.default), ("named", .texts i.named),
    ("namespace", .ofOption i.namespaceName), ("side_effect", .bool i.sideEffect)] ++
    (if i.required then [("require", .bool true)] else []))

def Exports.toJson (e : Exports) : Json :=
  .object [("named", .texts e.named), ("default", .ofOption e.default),
    ("module_exports", .texts e.assigned)]

def FunctionEntry.toJson (f : FunctionEntry) : Json :=
  .object ([("name", .text f.name), ("params", .texts f.params), ("async", .bool f.async),
    ("exported", .bool f.exported)] ++ (if f.arrow then [("arrow", .bool true)] else []) ++
    [("jsdoc", .ofOption f.doc)])

def Class.toJson (c : Class) : Json :=
  .object [("name", .text c.name), ("extends", .ofOption c.parent)]

def Component.toJson : Component → Json
  | .ofClass name base =>
    .object [("name", .text name), ("type", .text "class"), ("base", .text base)]
  | .ofFunction name params =>
    .object [("name", .text name), ("type", .text "function"), ("params", .texts params)]
  | .ofArrow name => .object [("name", .text name), ("type", .text "arrow"), ("params", .texts [])]

/-- A route as a JSON value, its owner under the name given. -/
def Route.toJson (owner : String) (r : Route) : Json :=
  .object [(owner, .text r.owner), ("method", .text r.verb), ("path", .text r.path),
    ("handlers", .texts r.handlers)]

/-- Routes as JSON values. The owner may be an application or a router, so each route is listed as
either. -/
def routesJson (rs : List Route) : Json :=
  .array (rs.map (Route.toJson "app") ++ rs.map (Route.toJson "router"))

def RemoteCall.toJson (c : RemoteCall) : Json :=
  .object [("type", .text c.client), ("method", .text c.verb), ("url", .text c.url),
    ("options", .ofOption c.options)]

def Comments.toJson (c : Comments) : Json :=
  .object [("single_line", .texts c.single), ("multi_line", .texts c.multi)]

def Outline.fields (o : Outline) : List (String × Json) :=
  [("imports", .array (o.imports.map Import.toJson)), ("exports", o.exports.toJson),
    ("classes", .array (o.classes.map Class.toJson)),
    ("functions", .array (o.functions.map FunctionEntry.toJson)),
    ("react_components", .array (o.components.map Component.toJson)),
    ("routes", routesJson o.routes), ("api_calls", .array (o.remoteCalls.map RemoteCall.toJson)),
    ("jsdoc", .texts o.docs), ("comments", o.comments.toJson)]

end CodeAtlas.JavaScript
