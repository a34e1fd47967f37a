import ComponentAudit.Project.Run

/-!
The component files below a directory. The rules of the ignore file come first, then the settings of
the directory, then the patterns of the selection; settings that cannot be used are passed over with a
warning.
-/

namespace ComponentAudit.Discovery

def ignoreFileName : Text := ".gitignore"

def fileRules (files : Files) (root : Location) : Run (List IgnoreRule) := do
  let file := root.child ignoreFileName
  if ← Run.finds files file then
    return IgnoreRule.ofLines (Text.lines (← Run.readText files file))
  else return []

/-- The rules that the settings of a directory add. -/
def settingsRules (host : Host) (files : Files) (root : Location) : Run (List IgnoreRule) :=
  match Settings.load host files root.path with
  | .ok settings => return IgnoreRule.ofLines settings.excludePaths
  | .error (.broken breakdown) => throw (.broken breakdown)
  | .error (.invalid error) => do
    Run.log .warning .discovery
      ("Ignoring exclude_paths from " ++ root.text ++ ": " ++ error.message)
    return []

def rules (host : Host) (files : Files) (root : Location) (selection : Selection) :
    Run (List IgnoreRule) := do
  let fromFile ← fileRules files root
  let fromSettings ← settingsRules host files root
  return fromFile ++ fromSettings ++ IgnoreRule.ofLines selection.excludePaths

/-- The selected files of a tree under given rules, each by its path from the root. Only the name of a
file decides on its extension. -/
def select (selection : Selection) (rules : List IgnoreRule) (tree : Tree) : List Text :=
  (tree.walk rules).filter fun path =>
    selection.hasExtension ((Text.splitOn '/' path).getLast?.getD [])

/-- Whether a walk gets to a file below a directory: the directory that holds it can be opened. -/
def isReached (files : Files) (root : Location) (path : Text) : Bool :=
  !files.overlong (root.below (Text.splitOn '/' path)).parent.path

/-- The component files that a path stands for: a file itself, if it has one of the extensions, or the
files below a directory. -/
def find (host : Host) (files : Files) (selection : Selection) (path : Text) :
    Run (List Location) := do
  let root ← Run.existing host files path
  match files.node? root with
  | none => return []
  | some (.file _) => return if selection.hasExtension root.name then [root] else []
  | some (.directory entries) =>
    let rules ← rules host files root selection
    let found := (select selection rules (.directory entries)).filter (isReached files root)
    Run.log .debug .discovery
      ("Found " ++ Text.ofNat found.length ++ " component files under " ++ root.text)
    return found.map fun path => root.below (Text.splitOn '/' path)

end ComponentAudit.Discovery
