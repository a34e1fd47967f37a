import ComponentAudit.Text.Basic

/-!
Questions to a version control system about a repository, and how its answers are read. A question is
a command line; whoever runs it is a parameter.
-/

namespace ComponentAudit

inductive GitQuery where
  /-- The directory at the top of the repository. -/
  | topLevel
  /-- Hash, author, date and subject of a revision. -/
  | commit (revision : Text)
  /-- The files at a revision. -/
  | files (revision : Text)
  /-- The content of a file at a revision. -/
  | content (revision path : Text)
  /-- The files that a revision touches. -/
  | changes (revision : Text)
  /-- The files that differ between two revisions. -/
  | changesBetween (base revision : Text)
  deriving DecidableEq

namespace GitQuery

def arguments : GitQuery → List Text
  | .topLevel => ["rev-parse", "--show-toplevel"]
  | .commit revision => ["show", "-s", "--date=iso", "--format=%H%n%an%n%ad%n%s", revision]
  | .files revision => ["ls-tree", "-r", "--name-only", revision]
  | .content revision path => ["show", revision ++ ":" ++ path]
  | .changes revision => ["diff-tree", "--no-commit-id", "--name-only", "-r", "--root", revision]
  | .changesBetween base revision => ["diff", "--name-only", base, revision]

def commandLine (query : GitQuery) : Text := Text.join " " ("git" :: query.arguments)

end GitQuery

/-- Why a command gave no answer. -/
inductive GitFailure where
  | exited (code : Int) (errorOutput : Text)
  | notStarted (reason : Text)

/-- Whoever answers questions about a repository. -/
structure Git where
  answer : GitQuery → Except GitFailure Text

inductive GitError where
  | commandFailed (query : GitQuery) (detail : Text)
  | unavailable (reason : Text)
  | noRepository (directory : Text)
  | unknownRevision (revision : Text)

namespace GitError

def message : GitError → Text
  | .commandFailed query detail => query.commandLine ++ " failed: " ++ detail
  | .unavailable reason => "Unable to run git: " ++ reason
  | .noRepository directory => directory ++ " is not inside a Git repository"
  | .unknownRevision revision => "Unknown revision '" ++ revision ++ "'"

/-- The error of a command that gave no answer: what it said, or else its exit code. -/
def ofFailure (query : GitQuery) : GitFailure → GitError
  | .notStarted reason => .unavailable reason
  | .exited code errorOutput =>
    let said := Text.trim errorOutput
    .commandFailed query (if said.isEmpty then "exit status " ++ Text.ofInt code else said)

end GitError

structure Commit where
  hash : Text
  author : Text
  date : Text
  message : Text
  deriving DecidableEq

namespace Commit

def shortHash (commit : Commit) : Text := commit.hash.take 7

/-- The revision that an answer describes, one field to a line; none without a hash. Missing fields
are empty. -/
def ofAnswer? (answer : Text) : Option Commit :=
  let fields := (Text.lines answer).map Text.trim
  let field := fun (n : Nat) => fields.getD n []
  if (field 0).isEmpty then none
  else some { hash := field 0, author := field 1, date := field 2, message := field 3 }

end Commit

/-- The paths that an answer lists, one to a line. -/
def pathsOfAnswer (answer : Text) : List Text :=
  ((Text.lines answer).map Text.trim).filter (!·.isEmpty)

end ComponentAudit
