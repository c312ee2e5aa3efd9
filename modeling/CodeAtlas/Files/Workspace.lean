import CodeAtlas.Files.Error
import CodeAtlas.Files.Path
import CodeAtlas.Files.Tree

/-!
# The workspace

A file system, from its root on, with the path of the directory that relative paths start from.
Paths are resolved component by component: a link is replaced by its target, up to `linkLimit` times
in one path, and passing through a directory needs it to be open.
-/

namespace CodeAtlas

open CodeAtlas.Path

/-- A file system with a working directory. -/
structure Workspace where
  /-- The path of the working directory. -/
  base : String
  /-- The root directory, with all that is in it. -/
  root : Node
  deriving Repr, Inhabited

/-- The names from the root to a place. -/
abbrev Location := List String

/-- How many links one path may pass through. -/
def linkLimit : Nat := 40

/-- How many bytes one name may have. -/
def nameLimit : Nat := 255

/-- How many bytes a whole path may have. -/
def pathLimit : Nat := 4095

/-- Where a path leads, and how many more links it might have passed through. -/
structure Place where
  location : Location
  node : Node
  linksLeft : Nat
  deriving Repr, Inhabited

namespace Workspace

/-- The place of the working directory, if no link is on the way to it. -/
def home (w : Workspace) : Location :=
  properComponents w.base

/-- A file system with an empty working directory and the directories above it. -/
def empty (base : String) : Workspace :=
  ⟨base, Node.nested (properComponents base)⟩

/-- Where a path starts: at the root, or else at a given place. -/
def start (here : Location) (path : String) : Location :=
  if isAbsolute path then [] else here

/-- Resolves components one after another. `followLast` says whether a link at the very end is
followed, and `follow` resolves the target of a link with the components after it. -/
def walk (root : Node) (linksLeft : Nat) (followLast : Bool)
    (follow : Location → String → List String → Except FileCause Place) :
    List String → Location → Except FileCause Place
  | [], here =>
    match root.at? here with
    | none => .error .notFound
    | some n => .ok ⟨here, n, linksLeft⟩
  | name :: rest, here =>
    match root.at? here with
    | some (.directory true es) =>
      if name = "" || name = "." then walk root linksLeft followLast follow rest here
      else if name = ".." then walk root linksLeft followLast follow rest here.dropLast
      else if nameLimit < name.utf8ByteSize then .error .nameTooLong
      else
        match es.lookup name with
        | none => .error .notFound
        | some (.link target) =>
          if rest.isEmpty && !followLast then .ok ⟨here ++ [name], .link target, linksLeft⟩
          else follow here target rest
        | some _ => walk root linksLeft followLast follow rest (here ++ [name])
    | some (.directory false _) => .error .denied
    | some _ => .error .notDirectory
    | none => .error .notFound

/-- Resolves components from a location, with at most so many links. -/
def resolveFrom (w : Workspace) (followLast : Bool) :
    (linksLeft : Nat) → Location → List String → Except FileCause Place
  | 0, here, names =>
    walk w.root 0 followLast (fun _ _ _ => .error .tooManyLinks) names here
  | links + 1, here, names =>
    walk w.root (links + 1) followLast
      (fun place target rest =>
        if target = "" then .error .notFound
        else resolveFrom w followLast links (start place target) (components target ++ rest))
      names here

/-- Where the target of a link leads, given the directory of the link. -/
def resolveTarget (w : Workspace) (linksLeft : Nat) (directory : Location) (target : String) :
    Except FileCause Place :=
  if target = "" then .error .notFound
  else w.resolveFrom true linksLeft (start directory target) (components target)

/-- `resolveFrom` the start of a path, which may be no path at all. -/
def resolve (w : Workspace) (followLast : Bool) (path : String) : Except FileError Place :=
  if path.toList.contains '\x00' then .error .nullCharacter
  else if path = "" then .error (.path .notFound path)
  else if pathLimit < path.utf8ByteSize then .error (.path .nameTooLong path)
  else
    (w.resolveFrom followLast linkLimit (start w.home path) (components path)).mapError
      (.path · path)

def find? (w : Workspace) (path : String) : Option Node :=
  match w.resolve true path with
  | .ok place => some place.node
  | .error _ => none

def exists? (w : Workspace) (path : String) : Bool :=
  (w.find? path).isSome

def isDirectory (w : Workspace) (path : String) : Bool :=
  (w.find? path).any Node.isDirectory

/-- The bytes of a file, through links; `find?` drops the cause of a failure, this keeps it. -/
def readFile (w : Workspace) (path : String) : Except FileError (List UInt8) := do
  let place ← w.resolve true path
  match place.node with
  | .file bytes => .ok bytes
  | .directory _ _ => .error (.path .isDirectory path)
  | .link _ => .error (.path .tooManyLinks path)

/-- The directory at a path, if it may be listed. -/
def openDirectory (w : Workspace) (path : String) : Except FileError Place := do
  let place ← w.resolve true path
  match place.node with
  | .directory true _ => .ok place
  | .directory false _ => .error (.path .denied path)
  | _ => .error (.path .notDirectory path)

/-- Changes the node at a location; the root itself stays. -/
def change (w : Workspace) (location : Location) (f : Option Node → Option Node) : Workspace :=
  { w with root := (Node.change f location w.root).getD w.root }

def put (w : Workspace) (location : Location) (n : Node) : Workspace :=
  w.change location fun _ => some n

/-! ## Making and changing -/

/-- The directory and the name under which a path would be made. -/
def place? (w : Workspace) (path : String) : Except FileError (Location × String) := do
  let trimmed := dropTrailingSlashes path
  let name := baseName trimmed
  let directory := parent trimmed
  let place ← (w.resolve true (if directory = "" then "." else directory)).mapError fun
    | .path cause _ => .path cause path
    | other => other
  match place.node with
  | .directory true _ => .ok (place.location, name)
  | .directory false _ => .error (.path .denied path)
  | _ => .error (.path .notDirectory path)

/-- Makes one directory; anything that is there already stands in the way. -/
def makeDirectory (w : Workspace) (path : String) : Except FileError Workspace :=
  match w.resolve false path with
  | .ok _ => .error (.path .alreadyExists path)
  | .error (.path .notFound _) => do
    let (directory, name) ← w.place? path
    .ok (w.put (directory ++ [name]) Node.emptyDirectory)
  | .error e => .error e

/-- Makes a directory unless one is there. -/
def ensureOne (w : Workspace) (path : String) : Except FileError Workspace :=
  if w.isDirectory path then .ok w else w.makeDirectory path

/-- The paths of a directory and of those above it, the highest first. Every step shortens the
path, so its length bounds the number of steps. -/
def ancestry : (steps : Nat) → String → List String
  | 0, path => [path]
  | steps + 1, path =>
    let above := parent (dropTrailingSlashes path)
    if above = "" || above = path then [path] else ancestry steps above ++ [path]

/-- Makes a directory and whatever is missing above it. -/
def makeDirectories (w : Workspace) (path : String) : Except FileError Workspace :=
  (ancestry path.length path).foldlM
    (fun w p => if w.exists? p && p != path then .ok w else w.ensureOne p) w

/-- Writes a file whose directory is there. -/
def writeInPlace (w : Workspace) (path : String) (bytes : List UInt8) :
    Except FileError Workspace :=
  match w.resolve true path with
  | .ok place =>
    match place.node with
    | .file _ => .ok (w.put place.location (.file bytes))
    | _ => .error (.path .isDirectory path)
  | .error (.path .notFound _) => do
    let (directory, name) ← w.place? path
    .ok (w.put (directory ++ [name]) (.file bytes))
  | .error e => .error e

/-- Writes a file and makes the directories above it. -/
def writeFile (w : Workspace) (path : String) (bytes : List UInt8) :
    Except FileError Workspace := do
  let directory := parent path
  let w ← w.makeDirectories (if directory = "" then "." else directory)
  w.writeInPlace path bytes

def makeLink (w : Workspace) (path target : String) : Except FileError Workspace :=
  match w.resolve false path with
  | .ok _ => .error (.link .alreadyExists target path)
  | .error (.path .notFound _) => do
    let directory := parent path
    let w ← w.makeDirectories (if directory = "" then "." else directory)
    let (directory, name) ← w.place? path
    .ok (w.put (directory ++ [name]) (.link target))
  | .error (.path cause _) => .error (.link cause target path)
  | .error e => .error e

/-- Removes whatever is at a path, a link itself and not its target. -/
def remove (w : Workspace) (path : String) : Except FileError Workspace := do
  let place ← w.resolve false path
  .ok (w.change place.location fun _ => none)

end Workspace

end CodeAtlas
