import ComponentAudit.History.Git

/-!
A repository that is kept as a value: revisions with their files, and answers that are fixed for
single commands.
-/

namespace ComponentAudit

/-- A revision with its files. A file without content is listed but cannot be read. -/
structure RecordedRevision where
  revision : Text
  commit : Commit
  files : List (Text × Option Text)
  /-- The files that the revision touches. -/
  changed : List Text

structure RecordedHistory where
  /-- The directory at the top. -/
  top : Text
  revisions : List RecordedRevision := []
  /-- Answers that are fixed, by the arguments of the command. -/
  fixed : List (Text × Except GitFailure Text) := []

namespace RecordedHistory

/-- Adds a revision; it hides an earlier one of the same name. -/
def record (history : RecordedHistory) (revision : RecordedRevision) : RecordedHistory :=
  { history with revisions := revision :: history.revisions }

/-- Fixes the answer to a command; it hides an earlier one. -/
def fix (history : RecordedHistory) (arguments : Text) (answer : Except GitFailure Text) :
    RecordedHistory :=
  { history with fixed := (arguments, answer) :: history.fixed }

def fatal {α : Type} (message : Text) : Except GitFailure α :=
  .error (.exited 128 ("fatal: " ++ message ++ "\n"))

def find (history : RecordedHistory) (name : Text) : Except GitFailure RecordedRevision :=
  match history.revisions.find? (·.revision == name) with
  | some revision => .ok revision
  | none => fatal ("bad revision '" ++ name ++ "'")

def answerLines (lines : List Text) : Text := Text.join "\n" lines ++ "\n"

/-- The content of a file at a revision, if it can be read. -/
def contentOf (revision : RecordedRevision) (path : Text) : Option Text :=
  (revision.files.lookup path).join

/-- The answer to a question for which none is fixed. -/
def compute (history : RecordedHistory) : GitQuery → Except GitFailure Text
  | .topLevel => .ok (answerLines [history.top])
  | .commit name => do
    let commit := (← history.find name).commit
    return answerLines [commit.hash, commit.author, commit.date, commit.message]
  | .files name => do
    return answerLines (Text.sort ((← history.find name).files.map (·.1)))
  | .content name path => do
    match contentOf (← history.find name) path with
    | some content => return content
    | none => fatal ("path '" ++ path ++ "' does not exist")
  | .changes name => do return answerLines (← history.find name).changed
  | .changesBetween base name => do
    let before ← history.find base
    let after ← history.find name
    let names := (before.files ++ after.files).map (·.1)
    let changed := names.eraseDups.filter fun path => contentOf before path != contentOf after path
    return answerLines (Text.sort changed)

def git (history : RecordedHistory) : Git where
  answer query :=
    match history.fixed.lookup (Text.join " " query.arguments) with
    | some answer => answer
    | none => history.compute query

end RecordedHistory

end ComponentAudit
