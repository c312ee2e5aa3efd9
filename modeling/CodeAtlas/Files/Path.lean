import CodeAtlas.Text.Case

/-!
# Paths

Paths are texts with components divided by slashes. Joining, naming and the suffix follow the usual
rules: an absolute path replaces what it is joined to, and the suffix of a name starts at its last
point unless that is its first or last character.
-/

namespace CodeAtlas.Path

/-- The components of a path as they stand; an empty one marks a slash at an end or a second one in
a row. -/
def components (path : String) : List String :=
  (Text.splitAt '/' path.toList).map String.ofList

def isAbsolute (path : String) : Bool :=
  path.toList.head? == some '/'

/-- An absolute path is not put under the directory. -/
def join (directory path : String) : String :=
  if isAbsolute path then path
  else if directory = "" || directory.toList.getLast? == some '/' then directory ++ path
  else directory ++ "/" ++ path

/-- A text without the slashes at its end. -/
def dropTrailingSlashes (path : String) : String :=
  String.ofList (path.toList.reverse.dropWhile (· == '/')).reverse

/-- What follows the last slash. -/
def baseName (path : String) : String :=
  (components path).getLastD ""

/-- What precedes the last slash, without the slashes at its end unless nothing else is there. -/
def parent (path : String) : String :=
  let head := (path.toList.reverse.dropWhile (· != '/')).reverse
  let trimmed := (head.reverse.dropWhile (· == '/')).reverse
  String.ofList (if trimmed.isEmpty then head else trimmed)

/-- The components that mean something: neither empty nor a single point. -/
def properComponents (path : String) : List String :=
  (components path).filter fun c => c != "" && c != "."

/-- A path without needless slashes and points; two slashes at the start, and no more, stay two. -/
def normalForm (path : String) : String :=
  let slashes := (path.toList.takeWhile (· == '/')).length
  let root := if slashes = 0 then "" else if slashes = 2 then "//" else "/"
  let inner := "/".intercalate (properComponents path)
  if root = "" && inner = "" then "." else root ++ inner

/-- The part of a name from its last point on, unless the point begins or ends the name. -/
def suffixOf (name : List Char) : List Char :=
  let after := name.reverse.takeWhile (· != '.')
  let before := name.length - after.length
  -- `before` counts the characters up to and with the last point
  if before ≤ 1 || after.isEmpty then [] else '.' :: after.reverse

/-- The last meaningful component of a path. -/
def name (path : String) : String :=
  (properComponents path).getLastD ""

/-- The suffix of a path in lower case, without the points before it. -/
def extension (path : String) : String :=
  String.ofList (Text.lower ((suffixOf (name path).toList).dropWhile (· == '.')))

end CodeAtlas.Path
