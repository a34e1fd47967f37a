import ComponentAudit.Project.Ignore
import ComponentAudit.Text.Lowercase

/-!
Which files of a project are components: those with one of the extensions, outside the directories
that hold no sources, and not left out by an ignore rule.
-/

namespace ComponentAudit

/-- An extension with its point, and without white space around it. -/
def normalizeExtension (extension : Text) : Text :=
  match Text.trim extension with
  | '.' :: rest => '.' :: rest
  | rest => '.' :: rest

/-- Directories that hold tools, packages or build results and no sources. -/
def excludedDirectories : List Text :=
  [".git", ".hg", ".svn", "node_modules", ".svelte-kit", "dist", "build", ".next", ".nuxt"]

/-- Whether a path leads through a directory that holds no sources. -/
def isExcludedPath (path : Text) : Bool :=
  (Text.splitOn '/' path).dropLast.any fun segment => excludedDirectories.contains segment

structure Selection where
  extensions : List Text
  excludePaths : List Text

namespace Selection

def defaultExtensions : List Text := [".svelte"]

/-- A selection; no extensions stand for the default ones. -/
def of (extensions excludePaths : List Text) : Selection where
  extensions :=
    (if extensions.isEmpty then defaultExtensions else extensions).map normalizeExtension
  excludePaths := excludePaths

/-- Whether a name ends with one of the extensions, whatever its case. -/
def hasExtension (selection : Selection) (name : Text) : Bool :=
  selection.extensions.any fun extension => (Text.lower extension).isSuffixOf (Text.lower name)

def selects (selection : Selection) (rules : List IgnoreRule) (path : Text) : Bool :=
  selection.hasExtension path && !isExcludedPath path &&
    !IgnoreRule.ignoresFile (rules ++ IgnoreRule.ofLines selection.excludePaths) path

def filterPaths (selection : Selection) (rules : List IgnoreRule) (paths : List Text) : List Text :=
  Text.sort (paths.filter (selection.selects rules))

end Selection

end ComponentAudit
