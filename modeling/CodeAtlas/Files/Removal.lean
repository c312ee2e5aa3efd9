import CodeAtlas.Files.Workspace

/-!
# Removing a directory

A directory is emptied and then removed. Emptying stops at a closed directory. Where the directory
itself cannot be removed it is closed, and a second attempt decides; a link in place of a directory
is left alone, and what it leads to is closed.
-/

namespace CodeAtlas

/-- Why a directory was not removed. -/
inductive RemovalError where
  | file (cause : FileError)
  /-- A directory could not be opened. -/
  | unopened
  deriving DecidableEq, Repr

def RemovalError.message : RemovalError → String
  | .file cause => cause.message
  | .unopened => "open() missing required argument 'flags' (pos 2)"

namespace Node

mutual

/-- What is left of an open directory's entries after emptying it, if anything had to be left. -/
def leftOf : List (String × Node) → Option (List (String × Node))
  | [] => none
  | (name, n) :: rest =>
    match leftAt n with
    | some n' => some ((name, n') :: rest)
    | none => leftOf rest

/-- What is left of a node after removing it, if anything had to be left. -/
def leftAt : Node → Option Node
  | .file _ => none
  | .link _ => none
  | .directory false es => some (.directory false es)
  | .directory true es => (leftOf es).map (.directory true)

end

end Node

namespace Workspace

def close (w : Workspace) (path : String) : Except FileError Workspace := do
  let place ← w.resolve true path
  return w.change place.location fun
    | some (.directory _ es) => some (.directory false es)
    | other => other

/-- Removes an empty directory. Its path must end in its name, and the directory it is in must be
open. -/
def removeEmpty (w : Workspace) (path : String) : Except FileError Workspace :=
  -- slashes at the end do not count
  match (Path.components path).reverse.dropWhile (· == "") with
  | [] => .error (.path .notFound path)
  | name :: above => do
    let place ← (w.resolveFrom true linkLimit (start w.home path) above.reverse).mapError
      (.path · path)
    match place.node with
    | .directory true es =>
      if name = "." then .error (.path .invalid path)
      else if name = ".." then .error (.path .notEmpty path)
      else
        match es.lookup name with
        | none => .error (.path .notFound path)
        | some (.directory _ []) => .ok (w.change (place.location ++ [name]) fun _ => none)
        | some (.directory _ _) => .error (.path .notEmpty path)
        | some _ => .error (.path .notDirectory path)
    | .directory false _ => .error (.path .denied path)
    | _ => .error (.path .notDirectory path)

/-- Removes an emptied directory, if need be by a second attempt after closing it. -/
def finishRemoval (w : Workspace) (path : String) : Workspace × Option RemovalError :=
  match w.removeEmpty path with
  | .ok w => (w, none)
  | .error _ =>
    match w.close path with
    | .error e => (w, some (.file e))
    | .ok w =>
      match w.removeEmpty path with
      | .ok w => (w, none)
      | .error e => (w, some (.file e))

/-- Removes the directory at a path with all that is in it: what becomes of the files, and what went
wrong. -/
def removeTree (w : Workspace) (path : String) : Workspace × Option RemovalError :=
  match w.resolve false path with
  | .error e => (w, some (.file e))
  | .ok place =>
    match place.node with
    | .link _ =>
      match w.close path with
      | .ok w => (w, none)
      | .error e => (w, some (.file e))
    | .file _ => (w, some (.file (.path .notDirectory path)))
    | .directory false _ => (w, some .unopened)
    | .directory true es =>
      match Node.leftOf es with
      | some left => (w.put place.location (.directory true left), some .unopened)
      | none => (w.put place.location .emptyDirectory).finishRemoval path

end Workspace

end CodeAtlas
