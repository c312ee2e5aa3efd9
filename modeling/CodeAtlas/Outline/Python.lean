import CodeAtlas.Json.Basic
import CodeAtlas.Script.Docstring
import CodeAtlas.Script.Grammar
import CodeAtlas.Script.Render

/-!
# Python outlines

What a module imports, its classes with their methods, its functions, and the routes that decorators
tie to either. Imports are listed wherever they stand, those of outer blocks before those of inner
ones; of the rest only the outermost level counts, and the methods of its classes.

Expressions are given by their text; where an expression has none, there is nothing in its place.
-/

namespace CodeAtlas.Python

open Script Text

/-! ## Imports -/

/-- An import: of a module, or of names from one. -/
inductive Import where
  | module (name : Alias)
  | members (source : Option String) (names : List Alias) (level : Nat)
  deriving DecidableEq, Repr

/-- Joins lists of lists place by place. -/
def mergeLevels {α : Type} : List (List α) → List (List α) → List (List α)
  | [], ls => ls
  | ls, [] => ls
  | l :: ls, m :: ms => (l ++ m) :: mergeLevels ls ms

mutual

/-- The imports of a statement by levels: first the statement itself, then the statements in it. -/
def importLevels : Stmt → List (List Import)
  | .importModules names => [names.map .module]
  | .importFrom source names level => [[.members source names level]]
  | .function _ body | .classDef _ body => [] :: bodyLevels body
  | .compound parts => [] :: partLevels parts
  | .expression _ | .assignment _ | .other => []

def bodyLevels : List Stmt → List (List Import)
  | [] => []
  | s :: ss => mergeLevels (importLevels s) (bodyLevels ss)

def partLevels : List Part → List (List Import)
  | [] => []
  | .statement s :: ps => mergeLevels (importLevels s) (partLevels ps)
  | .clause body :: ps => mergeLevels ([] :: bodyLevels body) (partLevels ps)

end

/-! ## Definitions -/

/-- What a parameter takes: one argument, further positional ones, one by name, or further named
ones. -/
inductive ParameterKind where
  | ordinary
  | rest
  | named
  | namedRest
  deriving DecidableEq, Repr

structure Parameter where
  name : String
  hint : Option String
  default : Option String
  kind : ParameterKind
  deriving DecidableEq, Repr

/-- A decorator, with the arguments it is called with. An argument without a name is unpacked. -/
structure Decorator where
  name : Option String
  arguments : List (Option String)
  named : List (Option String × Option String)
  deriving DecidableEq, Repr

structure Function where
  name : String
  isAsync : Bool
  parameters : List Parameter
  result : Option String
  decorators : List Decorator
  docstring : Option String
  deriving DecidableEq, Repr

structure Class where
  name : String
  bases : List (Option String)
  decorators : List Decorator
  docstring : Option String
  methods : List Function
  attributes : List String
  deriving DecidableEq, Repr

/-- A route that a decorator ties to a function, or to a method of a class. -/
structure Endpoint where
  owner : Option String
  function : String
  methods : List String
  path : Option String
  decorator : Decorator
  deriving DecidableEq, Repr

structure Outline where
  docstring : Option String
  imports : List Import
  classes : List Class
  functions : List Function
  endpoints : List Endpoint
  deriving DecidableEq, Repr

def textOf (e : Option Expr) : Option String :=
  e.bind Expr.text?

/-- The parameters of a function. Those given by position only are left out, but their defaults are
still dealt out: the last ordinary parameter gets the last default if there is one for each, and the
first ordinary parameter the first default if there are more. -/
def parametersOf (ps : Parameters) : List Parameter :=
  let defaults := ps.defaults.map some
  let missing := List.replicate (ps.ordinary.length - defaults.length) none
  let ordinary := ps.ordinary.zipWith
    (fun p d => ⟨p.id, textOf p.hint, textOf d, .ordinary⟩) (missing ++ defaults)
  let single (kind : ParameterKind) (p : Script.Parameter) : Parameter :=
    ⟨p.id, textOf p.hint, textOf p.default, kind⟩
  ordinary ++ (ps.rest.map (single .rest)).toList ++ ps.named.map (single .named) ++
    (ps.namedRest.map (single .namedRest)).toList

/-- Gives a name a value; the place of a name is where it first stood. -/
def setNamed (values : List (Option String × Option String)) (name value : Option String) :
    List (Option String × Option String) :=
  if values.any (·.1 == name) then
    values.map fun entry => if entry.1 == name then (name, value) else entry
  else values ++ [(name, value)]

def decoratorOf : Expr → Decorator
  | .call _ callee arguments keywords =>
    ⟨callee.text?, arguments.map Expr.text?,
      keywords.foldl (fun named k => setNamed named k.id k.value.text?) []⟩
  | e => ⟨e.text?, [], []⟩

def functionOf (s : Signature) (body : List Stmt) : Function where
  name := s.id
  isAsync := s.isAsync
  parameters := parametersOf s.parameters
  result := textOf s.result
  decorators := s.decorators.map decoratorOf
  docstring := docstring? body

def functionsIn (body : List Stmt) : List Function :=
  body.filterMap fun
    | .function s body => some (functionOf s body)
    | _ => none

def attributesIn (body : List Stmt) : List String :=
  body.flatMap fun
    | .assignment targets =>
      targets.filterMap fun
        | .name _ id => some id
        | _ => none
    | _ => []

def classOf (head : ClassHead) (body : List Stmt) : Class where
  name := head.id
  bases := head.bases.map Expr.text?
  decorators := head.decorators.map decoratorOf
  docstring := docstring? body
  methods := functionsIn body
  attributes := attributesIn body

/-! ## Routes -/

/-- The parts of a decorator's name that make a route. -/
def routeParts : List String :=
  [".get", ".post", ".put", ".delete", ".patch", ".head", ".options", ".route"]

/-- The names of decorators that make a route by themselves. -/
def routeNames : List String :=
  ["get", "post", "put", "delete", "patch"]

/-- Whether a decorator makes a route; case does not matter. -/
def Decorator.isRoute (d : Decorator) : Bool :=
  let name := lower (d.name.getD "").toList
  routeParts.any (fun part => occursIn part.toList name) ||
    beginsWith "route".toList.reverse name.reverse || routeNames.contains (String.ofList name)

def endpointsOf (owner : Option String) (f : Function) : List Endpoint :=
  (f.decorators.filter Decorator.isRoute).map fun d =>
    let methods := (d.named.find? (·.1 == some "methods")).bind (·.2)
    ⟨owner, f.name, methods.toList, d.arguments.head?.join, d⟩

/-! ## Modules -/

/-- What stands at the outermost level of a module. -/
inductive Item where
  | ofClass (c : Class)
  | ofFunction (f : Function)

/-- The classes and functions of a module in order. -/
def itemsOf (m : Module) : List Item :=
  m.filterMap fun
    | .classDef head body => some (.ofClass (classOf head body))
    | .function s body => some (.ofFunction (functionOf s body))
    | _ => none

/-- The class that stands at a place, if one does. -/
def Item.class? : Item → Option Class
  | .ofClass c => some c
  | .ofFunction _ => none

/-- The function that stands at a place, if one does. -/
def Item.function? : Item → Option Function
  | .ofClass _ => none
  | .ofFunction f => some f

/-- The routes of a class or a function. -/
def Item.endpoints : Item → List Endpoint
  | .ofClass c => c.methods.flatMap (endpointsOf (some c.name))
  | .ofFunction f => endpointsOf none f

def outlineOf (m : Module) : Outline :=
  let items := itemsOf m
  { docstring := docstring? m
    imports := (bodyLevels m).flatten
    classes := items.filterMap Item.class?
    functions := items.filterMap Item.function?
    endpoints := items.flatMap Item.endpoints }

/-- The outline of a text, or why it is no module. -/
def outline (code : List Char) : Except ReadError Outline :=
  (parse code).map outlineOf

/-! ## JSON -/

/-- An imported name as a JSON value. -/
def aliasJson (a : Alias) : Json :=
  .object [("name", .text a.id), ("asname", .ofOption a.given)]

def Import.toJson : Import → Json
  | .module name => aliasJson name
  | .members source names level =>
    .object [("module", .ofOption source), ("names", .array (names.map aliasJson)),
      ("level", .int level)]

def ParameterKind.name : ParameterKind → String
  | .ordinary => "arg"
  | .rest => "vararg"
  | .named => "kwonly"
  | .namedRest => "kwarg"

def ParameterKind.hasDefault : ParameterKind → Bool
  | .ordinary | .named => true
  | .rest | .namedRest => false

def Parameter.toJson (p : Parameter) : Json :=
  .object <|
    [("name", .text p.name), ("annotation", .ofOption p.hint)] ++
    (if p.kind.hasDefault then [("default", .ofOption p.default)] else []) ++
    [("kind", .text p.kind.name)]

/-- A decorator as a JSON value, given the key that stands for arguments without a name. -/
def Decorator.toJson (nameless : String) (d : Decorator) : Json :=
  .object
    [("name", .ofOption d.name), ("args", .array (d.arguments.map Json.ofOption)),
      ("kwargs", .object (d.named.map fun (name, value) => (name.getD nameless, .ofOption value)))]

def Function.toJson (nameless : String) (f : Function) : Json :=
  .object
    [("name", .text f.name), ("async", .bool f.isAsync),
      ("params", .array (f.parameters.map Parameter.toJson)), ("returns", .ofOption f.result),
      ("decorators", .array (f.decorators.map (Decorator.toJson nameless))),
      ("docstring", .ofOption f.docstring)]

def Class.toJson (nameless : String) (c : Class) : Json :=
  .object
    [("name", .text c.name), ("bases", .array (c.bases.map Json.ofOption)),
      ("decorators", .array (c.decorators.map (Decorator.toJson nameless))),
      ("docstring", .ofOption c.docstring),
      ("methods", .array (c.methods.map (Function.toJson nameless))),
      ("attributes", .texts c.attributes)]

def Endpoint.toJson (nameless : String) (e : Endpoint) : Json :=
  .object
    [("class", .ofOption e.owner), ("function", .text e.function), ("methods", .texts e.methods),
      ("path", .ofOption e.path), ("decorator", e.decorator.toJson nameless)]

/-- The outline as the fields of a JSON object, given the key that stands for arguments without a
name. -/
def Outline.fields (nameless : String) (o : Outline) : List (String × Json) :=
  [("module_docstring", .ofOption o.docstring), ("imports", .array (o.imports.map Import.toJson)),
    ("classes", .array (o.classes.map (Class.toJson nameless))),
    ("functions", .array (o.functions.map (Function.toJson nameless))),
    ("endpoints", .array (o.endpoints.map (Endpoint.toJson nameless)))]

end CodeAtlas.Python
