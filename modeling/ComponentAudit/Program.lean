import ComponentAudit.CommandLine.Invocation
import ComponentAudit.Project.Scan
import ComponentAudit.Report.CommitReport

/-!
The program as a function: from a file system, a repository and a command line to the changed file
system, what is printed, and how the run ended.
-/

namespace ComponentAudit

inductive Ending where
  | exited (code : Nat)
  /-- A failure for which the program has no message of its own. -/
  | escaped (failure : Failure)

structure Outcome where
  files : Files
  output : Text := []
  errorOutput : Text := []
  ending : Ending := .exited 0

/-- The path that a command takes its settings from. -/
def Invocation.settingsPath (invocation : Invocation) : Path :=
  Path.ofText (invocation.report.settings.getD invocation.command.path)

namespace Program

def usage : Text :=
  "usage: findref [-h] [-v] [--log-file LOG_FILE] " ++ "\x7b" ++ Text.join "," Command.names ++
    "\x7d ...\n"

/-- The entries that are shown on the console: all of them on request, else from `info` on. -/
def consoleLines (verbose : Bool) (entries : List LogEntry) : Text :=
  let shown := if verbose then entries else entries.filter (·.level != .debug)
  shown.flatMap fun entry =>
    "[findref] " ++ (if verbose then entry.full else entry.brief) ++ "\n"

/-- The entries that go to the log file: all of them on request, else those of the run itself. -/
def logFileLines (verbose : Bool) (entries : List LogEntry) : Text :=
  let kept := if verbose then entries else entries.filter (!·.source.isTrace)
  kept.flatMap fun entry => entry.full ++ "\n"

/-- The settings for a command, with what the command line says in their place. -/
def settingsFor (host : Host) (files : Files) (invocation : Invocation) :
    Except LoadError Settings := do
  let report := invocation.report
  let settings ← Settings.load host files invocation.settingsPath
  let extensions := match report.extensions with
    | none => settings.extensions
    | some list =>
      ((Text.splitOn ',' list).filter (!Text.isBlank ·)).map normalizeExtension
  return { settings with extensions, format := report.format.getD settings.format }

/-- A failure that ends a command with a message; every other failure is passed on. -/
def explain (name : Text) : Failure → Option Text
  | .pathNotFound path => some ((Failure.pathNotFound path).message ++ "\n")
  | .git error => some ("findref " ++ name ++ " failed: " ++ error.message ++
      "\nRun with --verbose for more details.\n")
  | _ => none

/-- The report of a command, or the message that takes its place. -/
def report (host : Host) (files : Files) (git : Git) (settings : Settings) :
    Command → Run (Except Text Text)
  | .scan path mode => do
    let scan ← Scan.run host files (some settings) path
    if scan.analyses.isEmpty && scan.skipped.isEmpty then
      return .error "No files found to analyze\n"
    else
      let rules : Suppression := { extraBuiltins := settings.options.extraBuiltins }
      return .ok (renderScan rules settings.format mode scan.analyses)
  | .commit revision path => do
    let analysis ← Snapshot.analyze host files git (some settings) path revision
    return .ok (analysis.render settings.format)
  | .compare before after path => do
    let comparison ← Snapshot.compare host files git (some settings) path before after
    return .ok (comparison.render settings.format)
  | .serve .. => return .error "The service is not part of this build\n"

def body (host : Host) (files : Files) (git : Git) (invocation : Invocation) :
    Run (Except Text Text) := do
  let command := invocation.command
  Run.log .debug .commandLine ("Running " ++ command.name ++ " command")
  match settingsFor host files invocation with
  | .error (.broken breakdown) => throw (.broken breakdown)
  | .error (.invalid error) => return .error ("Invalid configuration: " ++ error.message ++ "\n")
  | .ok settings =>
    tryCatch (report host files git settings command) fun failure =>
      match explain command.name failure with
      | some message => return .error message
      | none => throw failure

/-- A path as the program names it: from the working directory, if it is below it. -/
def displayPath (files : Files) (path : Path) : Text :=
  match (files.resolve path).relativeTo? files.workingDirectory with
  | some segments => (Path.mk false segments).text
  | none => path.text

/-- Hands out a report: to a file, or to the output with a line feed at its end. -/
def emit (outcome : Outcome) (text : Text) (output : Option Text) : Outcome :=
  match output with
  | none =>
    let ended := text.getLast? == some '\n'
    { outcome with output := if ended then text else text ++ ['\n'] }
  | some name =>
    let path := Path.ofText name
    if path.hasNull then { outcome with ending := .escaped (.broken .nullCharacter) }
    else
      match outcome.files.write path (Utf8.encode text) with
      | .ok files => {
          outcome with
          files
          output := "Analysis results written to: " ++ displayPath outcome.files path ++ "\n" }
      | .error error => {
          outcome with
          errorOutput := outcome.errorOutput ++ "Unable to write " ++ name ++ ": " ++
            error.message ++ "\n"
          ending := .exited 1 }

/-- Opens the log file, under its full path, and creates the directories above it; with what went wrong,
if anything did. -/
def openLog (files : Files) : Option Text → Files × Option Breakdown
  | none => (files, none)
  | some name =>
    let path := Path.ofText name
    if path.parent.hasNull then (files, some .nullCharacter)
    else
      match files.makeDirectory path.parent with
      | (made, some error) => (made, some (.file error))
      | (made, none) =>
        if path.hasNull then (made, some .nullCharacter)
        else
          match made.append (files.resolve path).path [] with
          | .ok opened => (opened, none)
          | .error error => (made, some (.file error))

/-- Writes entries to the log file. This is done when a run has ended, so that no run reads its own. -/
def writeLog (files : Files) (logFile : Option Text) (lines : Text) : Files :=
  match logFile with
  | none => files
  | some name =>
    match files.append (files.resolve (Path.ofText name)).path (Utf8.encode lines) with
    | .ok files => files
    | .error _ => files

def runInvocation (host : Host) (files : Files) (git : Git) (invocation : Invocation) : Outcome :=
  match openLog files invocation.logFile with
  | (files, some breakdown) => { files, ending := .escaped (.broken breakdown) }
  | (files, none) =>
    let (result, entries) := (body host files git invocation).result
    let outcome : Outcome := {
      files := writeLog files invocation.logFile (logFileLines invocation.verbose entries)
      errorOutput := consoleLines invocation.verbose entries }
    match result with
    | .error failure => { outcome with ending := .escaped failure }
    | .ok (.error message) => {
        outcome with errorOutput := outcome.errorOutput ++ message, ending := .exited 1 }
    | .ok (.ok text) => emit outcome text invocation.report.output

def run (host : Host) (files : Files) (git : Git) (words : List Text) : Outcome :=
  match Invocation.read words with
  | .error .help => { files, output := usage }
  | .error (.wrong error) => {
      files, errorOutput := "error: " ++ error.message ++ "\n", ending := .exited 2 }
  | .ok invocation => runInvocation host files git invocation

/-- The files that a command line names for writing: its log file and the file for its report. -/
def targets (words : List Text) : List Text :=
  match Invocation.read words with
  | .error _ => []
  | .ok invocation => invocation.logFile.toList ++ invocation.report.output.toList

/-- What a run wrote: the named files with the content that they have now. -/
def written (words : List Text) (outcome : Outcome) : List (Location × List UInt8) :=
  (targets words).filterMap fun name =>
    let location := outcome.files.resolve (Path.ofText name)
    match outcome.files.node? location with
    | some (.file content) => some (location, content)
    | _ => none

end Program

end ComponentAudit
