import CodeAtlas.Outline.Basic

/-!
# TypeScript outlines

All patterns run on the text without its comments: block comments are removed first, then line
comments. A class's methods are looked for up to the first closing brace after its opening one.
-/

namespace CodeAtlas.TypeScript

open Pattern Outline Text

/-- A class with its type parameters. -/
structure Class where
  name : String
  generics : Option String
  deriving DecidableEq, Repr

/-- A decorator with its argument. -/
structure Decorator where
  name : String
  argument : Option String
  deriving DecidableEq, Repr

/-- The decorators before a class. -/
structure DecoratedClass where
  name : String
  decorators : List Decorator
  deriving DecidableEq, Repr

/-- A route declared by a decorator on a method. -/
structure Route where
  decorator : String
  path : String
  handler : String
  deriving DecidableEq, Repr

structure Outline where
  interfaces : List String
  typeAliases : List String
  enums : List String
  classes : List Class
  classMethods : List (String × List String)
  imports : List String
  exports : List String
  functions : List String
  topLevelConsts : List String
  classDecorators : List DecoratedClass
  routes : List Route
  summary : String
  deriving DecidableEq, Repr

def withoutComments (code : List Char) : List Char :=
  (lineComment "//").replaceAll (fun _ => [])
    ((blockComment "/*").replaceAll (fun _ => []) code)

/-! ## Names and declarations -/

/-- A name: an ASCII letter or underscore, then word characters. -/
def name : Pattern :=
  one beginsName ++ many isWord

/-- A keyword that begins a word, white space and a name, which is group 1. -/
def declared (keyword : Pattern) : Pattern :=
  wordEdge ++ keyword ++ blanks1 ++ group 1 name

/-- A type alias; its name is group 1. -/
def aliasPattern : Pattern :=
  declared (lit "type") ++ blanks ++ lit "="

/-- A class: name and type parameters are groups 1 and 2. -/
def classPattern : Pattern :=
  declared (lit "class") ++
    opt (blanks ++ lit "<" ++ blanks ++ group 2 (many1 (notAmong ">\x7b")) ++ blanks ++ lit ">")

/-- An import; the module is group 1. -/
def importPattern : Pattern :=
  lit "import" ++ blanks1 ++ opt (lit "type" ++ blanks1) ++ span anyChar 1 none false ++ blanks1 ++
    lit "from" ++ blanks1 ++ one (among "'\"") ++ group 1 (span inLine 1 none false) ++
    one (among "'\"")

/-- An exported declaration; its name is group 1. -/
def exportPattern : Pattern :=
  wordEdge ++ lit "export" ++ blanks1 ++ opt (lit "default" ++ blanks1) ++
    anyOf ["class", "function", "const", "let", "var", "type", "interface", "enum"] ++ blanks1 ++
    group 1 name

/-- A declared function; its name is group 1. -/
def functionPattern : Pattern :=
  declared (lit "function") ++ blanks ++ lit "("

/-- A variable with a type or a value; its name is group 1. -/
def constPattern : Pattern :=
  declared (anyOf ["const", "let", "var"]) ++ blanks ++ one (among ":=") ++ one isBlank

def classes (code : List Char) : List Class :=
  (classPattern.findAll code).map fun m =>
    ⟨String.ofList (m.group 1), (m.group? 2).map fun g => String.ofList (trim g)⟩

/-! ## Decorators and routes -/

/-- A decorator: its name is group 1, its argument group 3. -/
def decoratorPattern : Pattern :=
  lit "@" ++ group 1 name ++
    opt (lit "(" ++ group 2 (opt (one (among "\"'")) ++ group 3 (many1 (notAmong "\"')")) ++
      opt (one (among "\"'"))) ++ lit ")")

/-- A class with up to six decorators before it: they are group 1, its name is group 2. -/
def decoratedClassPattern : Pattern :=
  group 1 (again (lit "@" ++ many1 isWord ++
      opt (lit "(" ++ many (notAmong ")") ++ lit ")") ++ blanks) 0 (some 6) true) ++
    blanks ++ opt (lit "export" ++ blanks1) ++ lit "class" ++ blanks1 ++ group 2 name

def decorators (text : List Char) : List Decorator :=
  (decoratorPattern.findAll text).map fun m =>
    ⟨String.ofList (m.group 1), (m.group? 3).map String.ofList⟩

/-- The classes of a text with the decorators before them. -/
def decoratedClasses (code : List Char) : List DecoratedClass :=
  (decoratedClassPattern.findAll code).map fun m =>
    ⟨String.ofList (m.group 2), decorators (trim (m.group 1))⟩

/-- What may precede the name of a method: an access word and `async`, each of which may stand
directly before it. -/
def methodModifiers : Pattern :=
  opt (anyOf ["public", "private", "protected"]) ++ blanks ++ opt (lit "async" ++ blanks)

/-- The decorators that make routes or guard them. -/
def routeDecorators : List String :=
  ["Get", "Post", "Put", "Delete", "Patch", "All", "Head", "Options", "UseGuards",
    "UseInterceptors", "UsePipes", "Roles"]

/-- A decorated method: decorator, path and name are groups 1, 3 and 4. -/
def routePattern : Pattern :=
  lit "@" ++ group 1 (anyOf routeDecorators) ++ blanks ++ lit "(" ++ blanks ++ one (among "'\"") ++
    group 3 (many (notAmong "'\"")) ++ one (among "'\"") ++ blanks ++ lit ")" ++ blanks ++
    methodModifiers ++ group 4 name ++ blanks ++ lit "("

def routes (code : List Char) : List Route :=
  (routePattern.findAll code).map fun m =>
    ⟨String.ofList (m.group 1), String.ofList (m.group 3), String.ofList (m.group 4)⟩

/-! ## Methods of classes -/

/-- The body of a class up to the first closing brace, which is group 1. -/
def bodyPattern (className : String) : Pattern :=
  lit "class" ++ blanks1 ++ lit className ++ opt (blanks ++ lit "<" ++ many1 (notAmong ">") ++
    lit ">") ++ blanks ++ lit "\x7b" ++ group 1 (fewest anyChar) ++ lit "\x7d"

/-- A method; its name is group 1. -/
def methodPattern : Pattern :=
  methodModifiers ++ group 1 name ++ blanks ++ lit "(" ++ many (notAmong ")") ++ lit ")" ++
    blanks ++ one (among ":\x7b")

def methodsOf (code : List Char) (className : String) : List String :=
  match (bodyPattern className).find? code with
  | none => []
  | some m => (collectTexts methodPattern 1 (m.group 1)).eraseDups

/-- The methods of every class, by name. -/
def classMethods (code : List Char) : List (String × List String) :=
  (classes code).foldl (fun table c => Json.setField table c.name (methodsOf code c.name)) []

/-! ## Summary and outline -/

/-- The first line that is neither blank nor an import, cut after two hundred characters. -/
def summary (code : List Char) : String :=
  let significant := ((lines code).map trim).find? fun line =>
    !line.isEmpty && !beginsWith "import".toList line
  match significant with
  | none => "TypeScript file (no summary found)."
  | some line =>
    if 200 < line.length then String.ofList (line.take 200) ++ "..." else String.ofList line

/-- The outline of a text without comments. -/
def outlineOfPlain (code : List Char) : Outline where
  interfaces := collectTexts (declared (lit "interface")) 1 code
  typeAliases := collectTexts aliasPattern 1 code
  enums := collectTexts (declared (lit "enum")) 1 code
  classes := classes code
  classMethods := classMethods code
  imports := (collectTexts importPattern 1 code).eraseDups
  exports := collectTexts exportPattern 1 code
  functions := (collectTexts functionPattern 1 code).eraseDups
  topLevelConsts := (collectTexts constPattern 1 code).eraseDups
  classDecorators := decoratedClasses code
  routes := routes code
  summary := summary code

def outline (code : List Char) : Outline :=
  outlineOfPlain (withoutComments code)

/-! ## JSON values -/

def Class.toJson (c : Class) : Json :=
  .object [("name", .text c.name), ("generics", .ofOption c.generics)]

def Decorator.toJson (d : Decorator) : Json :=
  .object [("name", .text d.name), ("arg", .ofOption d.argument)]

def DecoratedClass.toJson (c : DecoratedClass) : Json :=
  .object [("class", .text c.name), ("decorators", .array (c.decorators.map Decorator.toJson))]

def Route.toJson (r : Route) : Json :=
  .object [("decorator", .text r.decorator), ("path", .text r.path), ("handler", .text r.handler)]

def Outline.fields (o : Outline) : List (String × Json) :=
  [("interfaces", .texts o.interfaces), ("type_aliases", .texts o.typeAliases),
    ("enums", .texts o.enums), ("classes", .array (o.classes.map Class.toJson)),
    ("class_methods", .object (o.classMethods.map fun (k, v) => (k, .texts v))),
    ("imports", .texts o.imports), ("exports", .texts o.exports),
    ("functions", .texts o.functions), ("top_level_consts", .texts o.topLevelConsts),
    ("class_decorators", .array (o.classDecorators.map DecoratedClass.toJson)),
    ("routes", .array (o.routes.map Route.toJson)), ("summary", .text o.summary)]

end CodeAtlas.TypeScript
