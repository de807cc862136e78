/-!
Named files of bytes, as far as a command needs them: a whole file is read or replaced.
`Folder` keeps them in memory, so what a command does to files can be computed and proved; a
path means there what it means on the system.
-/

namespace Opstream

structure FileError where
  description : String
  number : Nat
  deriving DecidableEq, Repr

namespace FileError

def noSuchFile : FileError := ⟨"No such file or directory", 2⟩

def notFolder : FileError := ⟨"Not a directory", 20⟩

def isFolder : FileError := ⟨"Is a directory", 21⟩

def message (error : FileError) : String := s!"{error.description} (os error {error.number})"

end FileError

class Files (m : Type → Type) where
  readFile : String → m (Except FileError (List UInt8))
  writeFile : String → List UInt8 → m (Except FileError Unit)

/-- What lies in one folder and in those inside it. A place is the list of names that lead to
it from there; a folder that is listed brings along all those around it. -/
structure Folder where
  files : List (List String × List UInt8)
  folders : List (List String)

namespace Folder

/-- The names on a path, without regard to how many slashes stand between them. -/
def names (path : String) : List String :=
  ((path.toList.splitOn '/').filter (!·.isEmpty)).map String.ofList

def endsInSlash (path : String) : Bool := path.toList.getLast? = some '/'

/-- A path is followed from the folder itself unless it begins at the root of all. -/
def origin (path : String) : List String :=
  if path.toList.head? = some '/' then ["/"] else []

def isAround (place : List String) : Bool := place.all ["..", "/"].contains

def holdsFolder (folder : Folder) (place : List String) : Bool :=
  isAround place || folder.folders.any place.isPrefixOf

/-- A dot names the folder that it stands in, two dots the one around it. -/
def step (place : List String) (name : String) : List String :=
  if name = "." then place
  else if name = ".." then if isAround place then place ++ [".."] else place.dropLast
  else place ++ [name]

/-- Every name is looked up in a folder; only the last one may lead to something else. -/
def walk (folder : Folder) (place : List String) :
    List String → Except FileError (List String)
  | [] => .ok place
  | name :: rest =>
      if folder.holdsFolder place then folder.walk (step place name) rest
      else if (folder.files.lookup place).isSome then .error .notFolder
      else .error .noSuchFile

def resolve (folder : Folder) (path : String) : Except FileError (List String) :=
  if path = "" then .error .noSuchFile else folder.walk (origin path) (names path)

/-- Only a folder may be followed by a slash. -/
def read (folder : Folder) (path : String) : Except FileError (List UInt8) := do
  let place ← folder.resolve path
  if folder.holdsFolder place then throw .isFolder
  match folder.files.lookup place with
  | none => throw .noSuchFile
  | some bytes => if endsInSlash path then throw .notFolder else return bytes

def set (folder : Folder) (place : List String) (bytes : List UInt8) : Folder :=
  { folder with files := (place, bytes) :: folder.files.filter fun file => file.1 != place }

/-- A file is created where its folder exists, and replaced if it exists already. -/
def write (folder : Folder) (path : String) (bytes : List UInt8) : Except FileError Folder := do
  let place ← folder.resolve path
  if endsInSlash path || folder.holdsFolder place then throw .isFolder
  return folder.set place bytes

def ofPaths (files : List (String × List UInt8)) (folders : List String) : Folder where
  files := files.map fun (path, bytes) => ((names path).foldl step [], bytes)
  folders := folders.map fun path => (names path).foldl step []

def ownFiles (folder : Folder) : List (String × List UInt8) :=
  folder.files.filterMap fun
    | ([name], bytes) => some (name, bytes)
    | _ => none

end Folder

instance : Files (StateM Folder) where
  readFile path := do return (← get).read path
  writeFile path bytes := do
    match (← get).write path bytes with
    | .ok folder =>
        set folder
        return .ok ()
    | .error error => return .error error

end Opstream
