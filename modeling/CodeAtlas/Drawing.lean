import CodeAtlas.Files.Workspace

/-!
# Drawn directories

A directory as lines of text, with branches drawn before the names. What is drawn is the shape of a
directory: names in code-point order, with what lies below them; a file looks like a directory with
nothing in it. Some names are hidden with everything below them.

Links to directories are drawn with what lies below their targets. A path passes through no more
than `linkLimit` links, which also bounds how deep a drawing of links into themselves can get.
-/

namespace CodeAtlas

/-- The shape of a directory: its names in order, each with the shape of what it stands for. -/
inductive Shape where
  | node (entries : List (String × Shape))
  deriving Repr, Inhabited

namespace Shape

/-- The shape of a file, and of a directory with nothing in it. -/
def leaf : Shape :=
  .node []

/-- The names of a shape with what lies below them. -/
def entries : Shape → List (String × Shape)
  | .node es => es

end Shape

namespace Drawing

/-- The names that are never drawn. -/
def hiddenNames : List String :=
  [".git", "__pycache__"]

def inOrder {α : Type} (entries : List (String × α)) : List (String × α) :=
  entries.mergeSort fun a b => !(b.1 < a.1)

/-- The first failure among entries in order, or else all of them. -/
def sequence {α : Type} : List (String × Except FileError α) →
    Except FileError (List (String × α))
  | [] => .ok []
  | (name, value) :: rest => do
    let v ← value
    return (name, v) :: (← sequence rest)

/-! ## Shapes -/

mutual

/-- The shape of what is at a location. The path is that by which it was reached, and `follow` gives
the shape behind a link. A closed directory cannot be listed. -/
def shapeOf (follow : String → Location → String → Except FileError Shape) (path : String)
    (here : Location) : Node → Except FileError Shape
  | .file _ => .ok .leaf
  | .link target => follow path here.dropLast target
  | .directory false _ => .error (.path .denied path)
  | .directory true es => (sequence (inOrder (entryShapes follow path here es))).map .node

/-- The shapes of the entries of a directory that are not hidden. -/
def entryShapes (follow : String → Location → String → Except FileError Shape) (path : String)
    (here : Location) : List (String × Node) → List (String × Except FileError Shape)
  | [] => []
  | (name, n) :: rest =>
    let others := entryShapes follow path here rest
    if hiddenNames.contains name then others
    else (name, shapeOf follow (Path.join path name) (here ++ [name]) n) :: others

end

/-- The shape behind a link, if that is a directory; a link to anything else is drawn as a file is.
Every link uses up one of those that a path may pass through. -/
def shapeBehind (w : Workspace) : (links : Nat) → String → Location → String →
    Except FileError Shape
  | 0, _, _, _ => .ok .leaf
  | links + 1, path, directory, target =>
    match w.resolveTarget links directory target with
    | .error _ => .ok .leaf
    | .ok place =>
      if place.node.isDirectory then
        shapeOf (shapeBehind w (min links place.linksLeft)) path place.location place.node
      else .ok .leaf
termination_by links => links
decreasing_by exact Nat.lt_succ_of_le (Nat.min_le_left _ _)

def shapeAt (w : Workspace) (path : String) : Except FileError Shape := do
  let place ← w.openDirectory path
  shapeOf (shapeBehind w place.linksLeft) path place.location place.node

/-! ## Lines -/

mutual

def lines (before : String) : Shape → List String
  | .node es => entryLines before es

/-- The lines of entries: the name of each on a branch, and what lies below it. -/
def entryLines (before : String) : List (String × Shape) → List String
  | [] => []
  | [(name, shape)] => (before ++ "└── " ++ name) :: lines (before ++ "    ") shape
  | (name, shape) :: next :: rest =>
    (before ++ "├── " ++ name) :: lines (before ++ "│   ") shape ++ entryLines before (next :: rest)

end

def linesAt (w : Workspace) (path before : String) : Except FileError (List String) :=
  (shapeAt w path).map (lines before)

/-- The label of a directory: the one that is given, or else its name. -/
def label (path : String) (given : Option String) : String :=
  match given with
  | some name => if name = "" then Path.baseName (Path.dropTrailingSlashes path) else name
  | none => Path.baseName (Path.dropTrailingSlashes path)

/-- The drawing of the directory at a path, under its label. -/
def draw (w : Workspace) (path : String) (given : Option String) : Except FileError String := do
  let drawn ← linesAt w path ""
  return "\n".intercalate ((label path given ++ "/") :: drawn)

end Drawing

end CodeAtlas
