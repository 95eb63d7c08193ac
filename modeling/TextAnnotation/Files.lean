/-!
Files below one directory, as the library reads them: a path leads to the bytes of a file, or to the reason
why it does not.
-/

namespace TextAnnotation

/-- Why a path could not be read. -/
inductive ReadFailure where
  | notFound
  | notADirectory
  | isADirectory
  /-- The bytes are read, but they are no text. -/
  | notText
deriving DecidableEq, Repr

def ReadFailure.message : ReadFailure → String
  | .notText => "stream did not contain valid UTF-8"
  | .notFound => "No such file or directory (os error 2)"
  | .notADirectory => "Not a directory (os error 20)"
  | .isADirectory => "Is a directory (os error 21)"

/-- A path below the directory, as the names on the way. -/
abbrev RelativePath := List String

namespace RelativePath

def render (path : RelativePath) : String := "/".intercalate path

/-- The order of a walk that takes the entries of every directory by name: paths compare name by
name. -/
def le : RelativePath → RelativePath → Bool
  | [], _ => true
  | _ :: _, [] => false
  | a :: as, b :: bs => decide (a < b) || (a == b && le as bs)

/-- What is left of a path below `directory`, if it leads through it. -/
def below? : RelativePath → RelativePath → Option RelativePath
  | [], path => some path
  | _ :: _, [] => none
  | a :: directory, b :: path => if a = b then below? directory path else none

end RelativePath

/-- The files below a directory that is called `root`. -/
structure Files where
  root : String
  entries : List (RelativePath × List UInt8)
deriving Repr

namespace Files

/-- The path below the directory that a written path names, if it begins with the directory. -/
def resolve? (files : Files) (path : String) : Option RelativePath :=
  match path.splitOn "/" with
  | root :: names =>
    if root = files.root then some (names.filter fun name => name != "" && name != ".") else none
  | [] => none

def isDirectory (files : Files) (path : RelativePath) : Bool :=
  path.isEmpty || files.entries.any fun (file, _) => file != path && (path.below? file).isSome

/-- The bytes of the file at a path below the directory. -/
def readAt (files : Files) (path : RelativePath) : Except ReadFailure (List UInt8) :=
  match files.entries.lookup path with
  | some bytes => .ok bytes
  | none =>
    if files.isDirectory path then .error .isADirectory
    else if files.entries.any fun (file, _) => (file.below? path).isSome then .error .notADirectory
    else .error .notFound

/-- The bytes of the file that a written path names. -/
def read (files : Files) (path : String) : Except ReadFailure (List UInt8) :=
  match files.resolve? path with
  | some path => files.readAt path
  | none => .error .notFound

/-- The files at a path or below it, in the order of a walk; none if nothing is there. -/
def walk? (files : Files) (path : RelativePath) : Option (List RelativePath) :=
  let found := (files.entries.map (·.1)).filter fun file => (path.below? file).isSome
  if found.isEmpty && !files.isDirectory path then none else some (found.mergeSort RelativePath.le)

/-- The files without those at the given paths. -/
def remove (files : Files) (paths : List RelativePath) : Files :=
  { files with entries := files.entries.filter fun (file, _) => !paths.contains file }

end Files

end TextAnnotation
