import ComponentAudit.Project.Discovery

/-!
The component files of a repository at a revision, and the comparison of two revisions. The working
tree only says where the repository is and which settings apply.
-/

namespace ComponentAudit

structure CommitAnalysis where
  commit : Commit
  analyses : List Analysis
  /-- The selected files that the revision touches, or that changed since the base. -/
  modifiedFiles : List Text

def CommitAnalysis.statistics (analysis : CommitAnalysis) : Tally :=
  Analysis.totals analysis.analyses

def CommitAnalysis.paths (analysis : CommitAnalysis) : List Text :=
  analysis.analyses.map (·.filePath)

structure CommitComparison where
  before : CommitAnalysis
  after : CommitAnalysis

namespace CommitComparison

def differences (comparison : CommitComparison) : Tally :=
  comparison.before.statistics.difference comparison.after.statistics

/-- The paths of one list that another lacks, in order and each once. -/
def missingFrom (paths others : List Text) : List Text :=
  Text.sort (paths.filter (!others.contains ·)).eraseDups

/-- The files that only the later revision has. -/
def addedFiles (comparison : CommitComparison) : List Text :=
  missingFrom comparison.after.paths comparison.before.paths

def removedFiles (comparison : CommitComparison) : List Text :=
  missingFrom comparison.before.paths comparison.after.paths

end CommitComparison

namespace Git

def ask (git : Git) (directory : Text) (query : GitQuery) : Run Text := do
  Run.log .debug .history ("Running " ++ query.commandLine ++ " in " ++ directory)
  match git.answer query with
  | .ok answer => return answer
  | .error failure => throw (.git (.ofFailure query failure))

/-- The directory at the top of the repository around a directory. -/
def topLevel (git : Git) (directory : Text) : Run Path := do
  let top := Text.trim (← git.ask directory .topLevel)
  if top.isEmpty then throw (.git (.noRepository directory)) else return Path.ofText top

def commit (git : Git) (directory revision : Text) : Run Commit := do
  match Commit.ofAnswer? (← git.ask directory (.commit revision)) with
  | some commit => return commit
  | none => throw (.git (.unknownRevision revision))

def files (git : Git) (directory revision : Text) : Run (List Text) :=
  return pathsOfAnswer (← git.ask directory (.files revision))

def content (git : Git) (directory revision path : Text) : Run Text :=
  git.ask directory (.content revision path)

/-- The files that a revision touches, or those that differ from a base. -/
def changes (git : Git) (directory revision : Text) (base : Option Text) : Run (List Text) := do
  let query := match base with
    | none => GitQuery.changes revision
    | some base => .changesBetween base revision
  return pathsOfAnswer (← git.ask directory query)

end Git

namespace Snapshot

/-- A repository, the part of it that is asked for, and what is selected there. -/
structure View where
  git : Git
  /-- The directory at the top of the repository. -/
  repository : Text
  /-- The path that files have to be at or below; empty for all. -/
  scope : Text
  selection : Selection
  options : Options

def within (scope : Text) (paths : List Text) : List Text :=
  if scope.isEmpty then paths
  else paths.filter fun path => path == scope || (scope ++ ['/']).isPrefixOf path

/-- The view of the repository around a path. Without given settings those for the path apply. -/
def view (host : Host) (files : Files) (git : Git) (given : Option Settings) (path : Text) :
    Run View := do
  let target ← Run.existing host files path
  let directory := if files.hasDirectory target then target else target.parent
  let top ← Run.orBreak (← git.topLevel directory.text).checked
  let repository := files.resolve top
  let settings ← match given with
    | some settings => pure settings
    | none => Run.loadSettings host files target
  return {
    git
    repository := repository.text
    scope := Text.join "/" ((target.relativeTo? repository).getD [])
    selection := settings.selection
    options := settings.options }

/-- The rules of the ignore file at a revision, if it is among the listed files. -/
def rules (view : View) (revision : Text) (listed : List Text) : Run (List IgnoreRule) := do
  if listed.contains Discovery.ignoreFileName then
    let content ← view.git.content view.repository revision Discovery.ignoreFileName
    return IgnoreRule.ofLines (Text.lines content)
  else return []

def analyzeRevision (view : View) (revision : Text) (base : Option Text) : Run CommitAnalysis := do
  let commit ← view.git.commit view.repository revision
  Run.log .info .project ("Analysing commit " ++ commit.shortHash ++ " (" ++ commit.message ++ ")")
  let listed ← view.git.files view.repository revision
  let rules ← rules view revision listed
  let analyses ← (view.selection.filterPaths rules (within view.scope listed)).mapM fun path => do
    let source ← view.git.content view.repository revision path
    Run.analyzeFile source path view.options
  let changed ← view.git.changes view.repository revision base
  let modifiedFiles := view.selection.filterPaths rules (within view.scope changed)
  Run.log .debug .project ("Commit " ++ commit.shortHash ++ ": " ++ Text.ofNat analyses.length ++
    " files analysed, " ++ Text.ofNat modifiedFiles.length ++ " modified")
  return { commit, analyses, modifiedFiles }

def analyze (host : Host) (files : Files) (git : Git) (given : Option Settings)
    (path revision : Text) : Run CommitAnalysis := do
  analyzeRevision (← view host files git given path) revision none

def compare (host : Host) (files : Files) (git : Git) (given : Option Settings)
    (path before after : Text) : Run CommitComparison := do
  let view ← view host files git given path
  Run.log .info .project ("Comparing " ++ before ++ ".." ++ after ++ " in " ++ view.repository)
  let first ← analyzeRevision view before none
  let second ← analyzeRevision view after (some before)
  return { before := first, after := second }

end Snapshot

end ComponentAudit
