/-!
# Directory trees

Files, symbolic links and directories. A directory keeps its entries as a list with one entry for
each name, and may be closed: then it can be neither listed nor passed through.
-/

namespace CodeAtlas

/-- What a name in a directory stands for. -/
inductive Node where
  | file (bytes : List UInt8)
  | link (target : String)
  | directory (isOpen : Bool) (entries : List (String × Node))
  deriving Repr, Inhabited

namespace Node

def emptyDirectory : Node :=
  .directory true []

/-- Directories inside each other, each with the next name as its only entry. -/
def nested : List String → Node
  | [] => emptyDirectory
  | name :: rest => .directory true [(name, nested rest)]

/-- The entries of a directory; none for anything else. -/
def entries : Node → List (String × Node)
  | .directory _ es => es
  | _ => []

def isDirectory : Node → Bool
  | .directory _ _ => true
  | _ => false

def isLink : Node → Bool
  | .link _ => true
  | _ => false

def child? (n : Node) (name : String) : Option Node :=
  n.entries.lookup name

/-- Sets, replaces or removes the entry with a name; a new entry goes to the end. -/
def putEntry (es : List (String × Node)) (name : String) (value : Option Node) :
    List (String × Node) :=
  match es with
  | [] =>
    match value with
    | none => []
    | some v => [(name, v)]
  | (k, n) :: rest =>
    if k = name then
      match value with
      | none => rest
      | some v => (k, v) :: rest
    else (k, n) :: putEntry rest name value

/-- Sets, replaces or removes an entry of a directory; anything else stays as it is. -/
def setChild (n : Node) (name : String) (value : Option Node) : Node :=
  match n with
  | .directory o es => .directory o (putEntry es name value)
  | other => other

/-- The node at the end of a chain of names, without following links. -/
def at? (n : Node) : List String → Option Node
  | [] => some n
  | name :: rest =>
    match n.child? name with
    | none => none
    | some c => c.at? rest

/-- Changes the node at the end of a chain of names: the change is given what is there, if anything,
and says what shall be there. -/
def change (change' : Option Node → Option Node) : List String → Node → Option Node
  | [], n => change' (some n)
  | [name], n => some (n.setChild name (change' (n.child? name)))
  | name :: rest, n =>
    match n.child? name with
    | none => some n
    | some c => some (n.setChild name (change change' rest c))

end Node

end CodeAtlas
