import ComponentAudit.Project.Failure
import ComponentAudit.Yaml.Value

/-!
The surroundings of a run: who reads documents, and where users have their home directories. Both are
parameters, and nothing is assumed of either.
-/

namespace ComponentAudit

structure Host where
  /-- What a document stands for. -/
  readYaml : Text → Except YamlFailure Yaml
  /-- The home directory of a user; the empty name is that of the user who runs the program. -/
  home : Text → Option Text

/-- A path that the system takes. -/
def Path.checked (path : Path) : Except Breakdown Path :=
  if path.hasNull then .error .nullCharacter else .ok path

namespace Host

/-- The path of a home directory; none if it is not known. A directory that starts in a home directory
itself counts as unknown. -/
def homePath? (host : Host) (user : Text) : Option Path :=
  match host.home user with
  | none => none
  | some directory =>
    if directory.all (· == '/') then some ⟨true, []⟩
    else if directory.head? == some '~' || directory.contains '\x00' then none
    else some (Path.ofText directory)

/-- A path with the home directory that it may start in. -/
def expand (host : Host) (path : Path) : Except Breakdown Path :=
  match path.user? with
  | none => .ok path
  | some user =>
    if user.contains '\x00' then .error .nullCharacter
    else
      match host.homePath? user with
      | none => .error .unknownHome
      | some home => .ok { home with segments := home.segments ++ path.segments.drop 1 }

def locate (host : Host) (files : Files) (path : Path) : Except Breakdown Location := do
  let expanded ← host.expand path
  return files.resolve (← expanded.checked)

end Host

end ComponentAudit
