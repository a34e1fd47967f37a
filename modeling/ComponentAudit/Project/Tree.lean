import ComponentAudit.Project.Ignore
import ComponentAudit.Project.Selection
import ComponentAudit.Text.Utf8

/-!
Directory trees. The entries of a directory are kept in the order of their names, so walking a tree
is recursion on it: first the files of a directory, then its directories.
-/

namespace ComponentAudit

/-- A file with its bytes, or a directory with its entries. -/
inductive Tree where
  | file (content : List UInt8)
  | directory (entries : List (Text × Tree))

namespace Tree

def isDirectory : Tree → Bool
  | .file _ => false
  | .directory _ => true

def entry? (tree : Tree) (name : Text) : Option Tree :=
  match tree with
  | .file _ => none
  | .directory entries => entries.lookup name

def node? (tree : Tree) (segments : List Text) : Option Tree := segments.foldlM entry? tree

/-- Puts an entry into the entries of a directory, in the place of one with the same name. -/
def putEntry (name : Text) (node : Tree) : List (Text × Tree) → List (Text × Tree)
  | [] => [(name, node)]
  | first :: rest =>
    if first.1 == name then (name, node) :: rest
    else if Text.le name first.1 then (name, node) :: first :: rest
    else first :: putEntry name node rest

/-- The entries of a directory; a file has none. -/
def entries : Tree → List (Text × Tree)
  | .file _ => []
  | .directory entries => entries

/-- Puts a node at the end of segments, and directories on the way to it. -/
def put : Tree → List Text → Tree → Tree
  | _, [], node => node
  | tree, name :: rest, node =>
    let inner := (tree.entry? name).getD (.directory [])
    .directory (putEntry name (inner.put rest node) tree.entries)

def remove : Tree → List Text → Tree
  | tree, [] => tree
  | tree, [name] => .directory (tree.entries.filter (·.1 != name))
  | tree, name :: rest =>
    match tree.entry? name with
    | none => tree
    | some inner => .directory (putEntry name (inner.remove rest) tree.entries)

/-- The path of an entry of the directory at `base`; the root has the empty path. -/
def entryPath (base name : Text) : Text := if base.isEmpty then name else base ++ ['/'] ++ name

/-- The files of the directory at `base` that rules do not leave out. -/
def keptFiles (rules : List IgnoreRule) (base : Text) (entries : List (Text × Tree)) : List Text :=
  entries.filterMap fun (name, node) =>
    let path := entryPath base name
    if node.isDirectory || IgnoreRule.ignores rules path false then none else some path

/-- Whether the walk goes into a directory. -/
def isEntered (rules : List IgnoreRule) (base name : Text) : Bool :=
  !excludedDirectories.contains name && !IgnoreRule.ignores rules (entryPath base name) true

/-- The files in the directories among the entries of the directory at `base`. -/
def walkDirectories (rules : List IgnoreRule) (base : Text) : List (Text × Tree) → List Text
  | [] => []
  | (_, .file _) :: rest => walkDirectories rules base rest
  | (name, .directory entries) :: rest =>
    let inside :=
      if isEntered rules base name then
        keptFiles rules (entryPath base name) entries ++
          walkDirectories rules (entryPath base name) entries
      else []
    inside ++ walkDirectories rules base rest

/-- The files below a directory that rules do not leave out, each by its path from there. -/
def walk (rules : List IgnoreRule) (tree : Tree) : List Text :=
  keptFiles rules [] tree.entries ++ walkDirectories rules [] tree.entries

end Tree

end ComponentAudit
