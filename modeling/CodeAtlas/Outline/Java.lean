import CodeAtlas.Outline.Basic

/-!
# Java outlines

Packages, imports, types, fields, constructors and methods, found by their shape anywhere in the
text. Endpoints are in `Outline.JavaEndpoints`.
-/

namespace CodeAtlas.Java

open Pattern Outline Text

/-- An import: the word `static` with the white space after it, if it is there, and the name. -/
structure Import where
  staticPart : String
  name : String
  deriving DecidableEq, Repr

/-- A class, interface, enumeration or record. -/
structure TypeDeclaration where
  name : String
  modifiers : List String
  parents : List String
  interfaces : List String
  deriving DecidableEq, Repr

structure Field where
  name : String
  type : String
  modifiers : List String
  deriving DecidableEq, Repr

structure Parameter where
  type : String
  name : String
  deriving DecidableEq, Repr

structure Constructor where
  name : String
  access : String
  parameters : List Parameter
  deriving DecidableEq, Repr

structure Method where
  name : String
  result : String
  modifiers : List String
  parameters : List Parameter
  throws : List String
  deriving DecidableEq, Repr

/-! ## Packages, imports and annotations -/

/-- A package clause; the name is group 1. -/
def packagePattern : Pattern :=
  lit "package" ++ blanks1 ++ group 1 (many1 isDottedWord) ++ blanks ++ lit ";"

def package? (code : List Char) : Option String :=
  (packagePattern.find? code).map fun m => String.ofList (m.group 1)

/-- An import: `static` with its white space is group 1, the name group 2. -/
def importPattern : Pattern :=
  lit "import" ++ blanks1 ++ opt (group 1 (lit "static" ++ blanks1)) ++
    group 2 (many1 isDottedWord) ++ blanks ++ lit ";"

def imports (code : List Char) : List Import :=
  (importPattern.findAll code).map fun m =>
    ⟨String.ofList (m.group 1), String.ofList (m.group 2)⟩

/-- Arguments in parentheses that hold no closing parenthesis. -/
def arguments : Pattern :=
  lit "(" ++ many (notAmong ")") ++ lit ")"

/-- An annotation with its arguments, if they follow directly. -/
def annotationPattern : Pattern :=
  lit "@" ++ many1 isWord ++ opt arguments

/-- The annotations of a text, as written. -/
def annotationsOf (code : List Char) : List String :=
  collectWhole annotationPattern code

/-! ## Types -/

def isTypeListChar (c : Char) : Bool :=
  isDottedWord c || c == '<' || c == '>' || c == ',' || isBlank c

/-- A clause such as `extends A, B`; the list is the group given. -/
def clause (keyword : String) (index : Nat) : Pattern :=
  opt (blanks1 ++ lit keyword ++ blanks1 ++ group index (many1 isTypeListChar))

/-- A type declared by a keyword. Group 1 is the last modifier, group 3 the name, groups 4 and 5
what it extends and implements. -/
def typePattern (keyword : String) : Pattern :=
  star (group 1 (group 2
      (anyOf ["public", "private", "protected", "abstract", "final", "static"]) ++ blanks1)) ++
    lit keyword ++ blanks1 ++ group 3 (many1 isWord) ++ clause "extends" 4 ++
    clause "implements" 5

/-- The pieces between commas, as they stand; none if there is no text. -/
def commaPieces (text : List Char) : List String :=
  if text.isEmpty then [] else (splitAt ',' text).map String.ofList

/-- A keyword without white space. -/
def bareKeyword (keyword : String) : String :=
  String.ofList (keyword.toList.filter (notAmong " \t\n\r\x0b\x0c"))

/-- The types of a text that a keyword declares. White space in the keyword does not count. -/
def types (code : List Char) (keyword : String) : List TypeDeclaration :=
  ((typePattern (bareKeyword keyword)).findAll code).map fun m =>
    ⟨String.ofList (m.group 3), (words (m.group 1)).map String.ofList,
      commaPieces (m.group 4), commaPieces (m.group 5)⟩

/-! ## Members -/

def isTypeChar (c : Char) : Bool :=
  isWord c || c == '<' || c == '>' || c == '[' || c == ']'

/-- What may precede a member: an access word as group 1 and one further modifier as group 2. -/
def memberModifiers (further : List String) : Pattern :=
  opt (group 1 (anyOf ["public", "private", "protected"])) ++ blanks ++
    opt (group 2 (anyOf further)) ++ blanks

def modifiersOf (m : Match) : List String :=
  ([m.group? 1, m.group? 2].filterMap id).map String.ofList

/-- A field: its type is group 3, its name group 4. -/
def fieldPattern : Pattern :=
  memberModifiers ["static", "final", "transient", "volatile"] ++ group 3 (many1 isTypeChar) ++
    blanks1 ++ group 4 (many1 isWord) ++ blanks ++ opt (group 5 (lit "=" ++ many inLine)) ++
    lit ";"

def fields (code : List Char) : List Field :=
  (fieldPattern.findAll code).map fun m =>
    ⟨String.ofList (m.group 4), String.ofList (m.group 3), modifiersOf m⟩

/-- One parameter: the last word is its name, the words before it its type. -/
def parameter? (text : List Char) : Option Parameter :=
  let words := words text
  if words.length < 2 then none
  else
    some ⟨String.ofList (joinWith [' '] words.dropLast), String.ofList (words.getLastD [])⟩

/-- The parameters in a text: what stands between commas and has two words at least. -/
def parameters (text : List Char) : List Parameter :=
  (splitAt ',' text).filterMap parameter?

/-- A constructor: access, name and parameters are groups 1, 2 and 3. -/
def constructorPattern : Pattern :=
  group 1 (anyOf ["public", "private", "protected"]) ++ blanks1 ++ group 2 (many1 isWord) ++
    blanks ++ parenthesised 3

def constructors (code : List Char) : List Constructor :=
  (constructorPattern.findAll code).map fun m =>
    ⟨String.ofList (m.group 2), String.ofList (m.group 1), parameters (m.group 3)⟩

/-- Characters of a list of exceptions. -/
def isThrowsChar (c : Char) : Bool :=
  isDottedWord c || c == ',' || isBlank c

/-- A method: result type, name, parameters and exceptions are groups 3 to 6. -/
def methodPattern : Pattern :=
  memberModifiers ["static", "final", "abstract", "synchronized"] ++ group 3 (many1 isTypeChar) ++
    blanks1 ++ group 4 (many1 isWord) ++ blanks ++ parenthesised 5 ++
    opt (blanks1 ++ lit "throws" ++ blanks1 ++ group 6 (many1 isThrowsChar))

def methods (code : List Char) : List Method :=
  (methodPattern.findAll code).map fun m =>
    ⟨String.ofList (m.group 4), String.ofList (m.group 3), modifiersOf m, parameters (m.group 5),
      commaPieces (m.group 6)⟩

/-! ## Comments -/

structure Comments where
  documentation : List String
  single : List String
  deriving DecidableEq, Repr

def comments (code : List Char) : Comments :=
  ⟨collectWhole (blockComment "/**") code, collectWhole (lineComment "//") code⟩

/-! ## JSON values -/

def Import.toJson (i : Import) : Json :=
  .texts [i.staticPart, i.name]

def TypeDeclaration.toJson (t : TypeDeclaration) : Json :=
  .object [("name", .text t.name), ("modifiers", .texts t.modifiers), ("extends", .texts t.parents),
    ("implements", .texts t.interfaces)]

def Field.toJson (f : Field) : Json :=
  .object [("name", .text f.name), ("type", .text f.type), ("modifiers", .texts f.modifiers)]

def Parameter.toJson (p : Parameter) : Json :=
  .object [("type", .text p.type), ("name", .text p.name)]

def parametersJson (ps : List Parameter) : Json :=
  .array (ps.map Parameter.toJson)

def Constructor.toJson (c : Constructor) : Json :=
  .object [("name", .text c.name), ("access", .text c.access),
    ("parameters", parametersJson c.parameters)]

def Method.toJson (m : Method) : Json :=
  .object [("name", .text m.name), ("return_type", .text m.result),
    ("modifiers", .texts m.modifiers), ("parameters", parametersJson m.parameters),
    ("throws", .texts m.throws)]

def Comments.toJson (c : Comments) : Json :=
  .object [("javadoc", .texts c.documentation), ("single_line", .texts c.single)]

end CodeAtlas.Java
