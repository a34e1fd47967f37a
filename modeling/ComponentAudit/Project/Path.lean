import ComponentAudit.Text.Basic

/-!
Paths as they are written, and locations, which are absolute paths without detours. No directory is a
link, so a step up undoes the step before it.
-/

namespace ComponentAudit

/-- A path as it is written, without empty segments and without `.`. -/
structure Path where
  absolute : Bool
  segments : List Text
  deriving DecidableEq

/-- An absolute path without steps up: the segments from the root of the file system. -/
structure Location where
  segments : List Text
  deriving DecidableEq

def stepUp : Text := ".."

namespace Location

def text (location : Location) : Text := '/' :: Text.join "/" location.segments

def name (location : Location) : Text := location.segments.getLast?.getD []

/-- The directory that holds a location; the root holds itself. -/
def parent (location : Location) : Location := ⟨location.segments.dropLast⟩

def child (location : Location) (name : Text) : Location := ⟨location.segments ++ [name]⟩

/-- A location below a directory, by its segments from there. -/
def below (location : Location) (segments : List Text) : Location := ⟨location.segments ++ segments⟩

/-- The segments from a directory to a location in or below it. -/
def relativeTo? (location directory : Location) : Option (List Text) :=
  if directory.segments.isPrefixOf location.segments then
    some (location.segments.drop directory.segments.length)
  else none

def follow (location : Location) (segment : Text) : Location :=
  if segment == stepUp then location.parent else location.child segment

def path (location : Location) : Path := ⟨true, location.segments⟩

end Location

namespace Path

def ofText (t : Text) : Path where
  absolute := t.head? == some '/'
  segments := (Text.splitOn '/' t).filter fun segment => !segment.isEmpty && segment != ['.']

def text (path : Path) : Text :=
  if path.absolute then '/' :: Text.join "/" path.segments
  else if path.segments.isEmpty then ['.']
  else Text.join "/" path.segments

/-- The directory that a path starts from. -/
def start (path : Path) (workingDirectory : Location) : Location :=
  if path.absolute then ⟨[]⟩ else workingDirectory

def resolve (path : Path) (workingDirectory : Location) : Location :=
  path.segments.foldl Location.follow (path.start workingDirectory)

def parent (path : Path) : Path := { path with segments := path.segments.dropLast }

def child (path : Path) (name : Text) : Path := { path with segments := path.segments ++ [name] }

/-- Whether a path holds the null character, which ends a name for the system. -/
def hasNull (path : Path) : Bool := path.segments.any fun segment => segment.contains '\x00'

/-- The user in whose home directory a path starts. The empty name is that of the user who runs the
program. -/
def user? (path : Path) : Option Text :=
  match path.absolute, path.segments with
  | false, ('~' :: user) :: _ => some user
  | _, _ => none

/-- The end of the last segment from its last point on; empty if the point is its first or last
character. -/
def extension (path : Path) : Text :=
  let name := path.segments.getLast?.getD []
  let tail := (name.reverse.takeWhile (· != '.')).reverse
  if tail.isEmpty || name.length ≤ tail.length + 1 then [] else '.' :: tail

end Path

end ComponentAudit
