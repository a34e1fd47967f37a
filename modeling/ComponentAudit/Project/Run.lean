import ComponentAudit.Log
import ComponentAudit.Project.Settings

/-!
Runs over whole projects. A run leaves log entries behind, also when it fails.
-/

namespace ComponentAudit

/-- A computation that leaves log entries behind and may fail. -/
abbrev Run := ExceptT Failure (StateM (List LogEntry))

namespace Run

/-- Runs a computation: its result, and its entries in order. -/
def result {α : Type} (run : Run α) : Except Failure α × List LogEntry :=
  Id.run ((ExceptT.run run).run [])

def logAll (entries : List LogEntry) : Run Unit := modify (· ++ entries)

def log (level : LogLevel) (source : LogSource) (message : Text) : Run Unit :=
  logAll [⟨level, source, message⟩]

/-- A step that may break off. -/
def orBreak {α : Type} : Except Breakdown α → Run α
  | .ok a => return a
  | .error breakdown => throw (.broken breakdown)

/-- A text that has to be read. -/
def readText (files : Files) (location : Location) : Run Text :=
  match files.readText location with
  | .ok text => return text
  | .error .undecodable => throw (.broken .undecodable)
  | .error (.file error) => throw (.broken (.file error))

def finds (files : Files) (location : Location) : Run Bool :=
  orBreak ((files.finds location).mapError .file)

def loadSettings (host : Host) (files : Files) (location : Location) : Run Settings :=
  match Settings.load host files location.path with
  | .ok settings => return settings
  | .error (.broken breakdown) => throw (.broken breakdown)
  | .error (.invalid error) => throw (.settings error)

/-- Where a path leads, if there is something. -/
def existing (host : Host) (files : Files) (path : Text) : Run Location := do
  let location ← orBreak (host.locate files (Path.ofText path))
  if ← finds files location then return location else throw (.pathNotFound path)

def analyzeFile (source filePath : Text) (options : Options) : Run Analysis := do
  let analysis := analyze source filePath options
  logAll (analysis.trace source)
  return analysis

end Run

end ComponentAudit
