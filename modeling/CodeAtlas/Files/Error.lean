import CodeAtlas.Text.Quoted

/-!
# File errors

Why an operation on files fails, with the path it was asked for.
-/

namespace CodeAtlas

inductive FileCause where
  | notFound
  | denied
  | alreadyExists
  | notDirectory
  | isDirectory
  | invalid
  | nameTooLong
  | notEmpty
  | tooManyLinks
  deriving DecidableEq, Repr

def FileCause.number : FileCause → Nat
  | .notFound => 2
  | .denied => 13
  | .alreadyExists => 17
  | .notDirectory => 20
  | .isDirectory => 21
  | .invalid => 22
  | .nameTooLong => 36
  | .notEmpty => 39
  | .tooManyLinks => 40

def FileCause.wording : FileCause → String
  | .notFound => "No such file or directory"
  | .denied => "Permission denied"
  | .alreadyExists => "File exists"
  | .notDirectory => "Not a directory"
  | .isDirectory => "Is a directory"
  | .invalid => "Invalid argument"
  | .nameTooLong => "File name too long"
  | .notEmpty => "Directory not empty"
  | .tooManyLinks => "Too many levels of symbolic links"

/-- A failed operation on files. -/
inductive FileError where
  /-- A cause and the path. -/
  | path (cause : FileCause) (path : String)
  /-- A cause and the two paths of a link: what it should hold and where it should be. -/
  | link (cause : FileCause) (target path : String)
  /-- A path that holds the character with code zero. -/
  | nullCharacter
  deriving DecidableEq, Repr

def FileError.message : FileError → String
  | .path cause p => s!"[Errno {cause.number}] {cause.wording}: " ++ Text.Quoted.quote p
  | .link cause target p =>
    s!"[Errno {cause.number}] {cause.wording}: " ++ Text.Quoted.quote target ++ " -> " ++
      Text.Quoted.quote p
  | .nullCharacter => "embedded null byte"

end CodeAtlas
