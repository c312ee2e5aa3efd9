import CodeAtlas.Files.Workspace

/-!
# Walking a directory

The files below a directory: first those in it, then those below its subdirectories, both in the
order in which the directory lists its entries. Links to directories are neither files nor walked
into, and closed directories are passed over.
-/

namespace CodeAtlas.Workspace

/-- What a walk finds under a name: a file, the files below a directory, or nothing. -/
inductive Found where
  | file (path : String)
  | below (paths : List String)
  | nothing

def Found.file? : Found → Option String
  | .file path => some path
  | _ => none

/-- The files below, if a directory was found. -/
def Found.paths : Found → List String
  | .below paths => paths
  | _ => []

mutual

/-- Files of the directory first, then those below each entry, as a walk gives them. -/
def filesBelow (w : Workspace) (path : String) : Node → List String
  | .directory true es =>
    let found := entriesBelow w path es
    found.filterMap Found.file? ++ found.flatMap Found.paths
  | _ => []

/-- What is found under the names of a directory. -/
def entriesBelow (w : Workspace) (path : String) : List (String × Node) → List Found
  | [] => []
  | (name, n) :: rest =>
    let here := Path.join path name
    let found := match n with
      | .file _ => Found.file here
      | .link _ => if w.isDirectory here then .nothing else .file here
      | .directory isOpen es => .below (filesBelow w here (.directory isOpen es))
    found :: entriesBelow w path rest

end

def filesAt (w : Workspace) (path : String) : List String :=
  match w.find? path with
  | some n => w.filesBelow path n
  | none => []

end CodeAtlas.Workspace
