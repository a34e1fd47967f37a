import ComponentAudit.Project.Path
import ComponentAudit.Project.Tree
import ComponentAudit.Text.Quoted

/-!
A file system: a tree and the directory in which commands run. Asking, reading, writing and appending
fail as they do on a real one, which refuses names and paths that are too long. Everything may be read
and written, no entry is a link, and neither disk nor memory nor the call stack is ever used up.
-/

namespace ComponentAudit

inductive FileFault where
  | missing
  | alreadyExists
  | notADirectory
  | isADirectory
  | nameTooLong
  deriving DecidableEq

namespace FileFault

def number : FileFault → Nat
  | .missing => 2
  | .alreadyExists => 17
  | .notADirectory => 20
  | .isADirectory => 21
  | .nameTooLong => 36

def words : FileFault → Text
  | .missing => "No such file or directory"
  | .alreadyExists => "File exists"
  | .notADirectory => "Not a directory"
  | .isADirectory => "Is a directory"
  | .nameTooLong => "File name too long"

end FileFault

structure FileError where
  fault : FileFault
  path : Text
  deriving DecidableEq

def FileError.message (error : FileError) : Text :=
  "[Errno " ++ Text.ofNat error.fault.number ++ "] " ++ error.fault.words ++ ": " ++
    Text.quoted error.path

inductive ReadError where
  | file (error : FileError)
  | undecodable

/-- A file system and the working directory. -/
structure Files where
  tree : Tree
  workingDirectory : Location

namespace Files

def node? (files : Files) (location : Location) : Option Tree := files.tree.node? location.segments

def contains (files : Files) (location : Location) : Bool := (files.node? location).isSome

def hasDirectory (files : Files) (location : Location) : Bool :=
  (files.node? location).any Tree.isDirectory

def resolve (files : Files) (path : Path) : Location := path.resolve files.workingDirectory

def walkStep (files : Files) (location : Location) (segment : Text) : Except FileFault Location :=
  match files.node? location with
  | none => .error .missing
  | some (.file _) => .error .notADirectory
  | some (.directory _) =>
    let next := location.follow segment
    if files.contains next then .ok next else .error .missing

/-- Follows a path step by step, so that everything on the way has to exist. -/
def reach (files : Files) (path : Path) : Except FileFault Location :=
  path.segments.foldlM files.walkStep (path.start files.workingDirectory)

/-! ## Limits -/

/-- The most bytes that the name of an entry has. -/
def nameLimit : Nat := 255

/-- The most bytes that a path has when the system is asked about it. -/
def pathLimit : Nat := 4095

/-- Whether following segments from a location comes to a name that is too long. Behind what is no
directory nothing is looked up. -/
def meetsLongName (files : Files) : Location → List Text → Bool
  | _, [] => false
  | location, name :: rest =>
    files.hasDirectory location &&
      (nameLimit < Utf8.size name || files.meetsLongName (location.follow name) rest)

def overlong (files : Files) (path : Path) : Bool :=
  pathLimit < Utf8.size path.text ||
    files.meetsLongName (path.start files.workingDirectory) path.segments

/-! ## Questions -/

/-- Whether a path leads to a directory. One that holds the null character leads nowhere. -/
def leadsToDirectory (files : Files) (path : Path) : Except FileError Bool :=
  if path.hasNull then .ok false
  else if files.overlong path then .error ⟨.nameTooLong, path.text⟩
  else
    match files.reach path with
    | .ok location => .ok (files.hasDirectory location)
    | .error _ => .ok false

/-- Whether there is something at a location, as the system answers. -/
def finds (files : Files) (location : Location) : Except FileError Bool :=
  if files.overlong location.path then .error ⟨.nameTooLong, location.text⟩
  else .ok (files.contains location)

/-- The text of the file at a location, with normalised line ends. -/
def readText (files : Files) (location : Location) : Except ReadError Text :=
  if files.overlong location.path then .error (.file ⟨.nameTooLong, location.text⟩)
  else
    match files.node? location with
    | none => .error (.file ⟨.missing, location.text⟩)
    | some (.directory _) => .error (.file ⟨.isADirectory, location.text⟩)
    | some (.file content) =>
      match Utf8.decode? content with
      | none => .error .undecodable
      | some text => .ok (Text.normalizeLineEnds text)

/-! ## Changes -/

def put (files : Files) (location : Location) (node : Tree) : Files :=
  { files with tree := files.tree.put location.segments node }

/-- The place of the last segment of a path. Everything in front of it has to exist. -/
def placeFor (files : Files) (path : Path) (name : Text) : Except FileFault Location :=
  if files.overlong path then .error .nameTooLong
  else
    match files.reach path.parent with
    | .error fault => .error fault
    | .ok directory =>
      if files.hasDirectory directory then .ok (directory.follow name) else .error .notADirectory

/-- Where a file is written that a path names, with the bytes that are there. -/
def openForWriting (files : Files) (path : Path) : Except FileError (Location × List UInt8) :=
  let fault := fun (fault : FileFault) => Except.error (⟨fault, path.text⟩ : FileError)
  match path.segments.getLast? with
  | none => fault .isADirectory
  | some name =>
    match files.placeFor path name with
    | .error found => fault found
    | .ok location =>
      match files.node? location with
      | some (.directory _) => fault .isADirectory
      | some (.file content) => .ok (location, content)
      | none => .ok (location, [])

/-- Writes a file in the place of what it held. -/
def write (files : Files) (path : Path) (content : List UInt8) : Except FileError Files := do
  let (location, _) ← files.openForWriting path
  return files.put location (.file content)

/-- Adds to the end of a file, which is created if it is missing. -/
def append (files : Files) (path : Path) (content : List UInt8) : Except FileError Files := do
  let (location, before) ← files.openForWriting path
  return files.put location (.file (before ++ content))

/-- Creates a directory. The one that is to hold it has to exist, and nothing may be there yet. -/
def createDirectory (files : Files) (path : Path) : Except FileFault Files :=
  match path.segments.getLast? with
  | none => .error .alreadyExists
  | some name => do
    let location ← files.placeFor path name
    if files.contains location then .error .alreadyExists
    else .ok (files.put location (.directory []))

/-- Creates a directory unless it exists; with what went wrong, if anything did. -/
def ensureDirectory (files : Files) (path : Path) : Files × Option FileError :=
  match files.createDirectory path with
  | .ok made => (made, none)
  | .error fault =>
    match files.leadsToDirectory path with
    | .error error => (files, some error)
    | .ok true => (files, none)
    | .ok false => (files, some ⟨fault, path.text⟩)

/-- Creates the directory of a path, whose segments come last first. If the one above it is missing, that
one is created first. -/
def makeDirectoryFrom (absolute : Bool) (files : Files) : List Text → Files × Option FileError
  | [] => files.ensureDirectory ⟨absolute, []⟩
  | name :: above =>
    let path : Path := ⟨absolute, (name :: above).reverse⟩
    match files.createDirectory path with
    | .error .missing =>
      match makeDirectoryFrom absolute files above with
      | (made, none) => made.ensureDirectory path
      | failed => failed
    | _ => files.ensureDirectory path

/-- Creates a directory and those above it that are missing. What was created stays when a step fails. -/
def makeDirectory (files : Files) (path : Path) : Files × Option FileError :=
  makeDirectoryFrom path.absolute files path.segments.reverse

end Files

end ComponentAudit
