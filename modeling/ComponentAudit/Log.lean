import ComponentAudit.Component.Analysis

/-!
Log entries. What the analysis of a single file tells is traced only on request; everything else is
an entry of the run.
-/

namespace ComponentAudit

/-- How much an entry matters. -/
inductive LogLevel where
  | debug
  | info
  | warning
  deriving DecidableEq

def LogLevel.label : LogLevel → Text
  | .debug => "DEBUG"
  | .info => "INFO"
  | .warning => "WARNING"

/-- The part of the program that an entry comes from. -/
inductive LogSource where
  | commandLine
  | discovery
  | project
  | history
  | regions
  | analysis
  deriving DecidableEq

namespace LogSource

def label : LogSource → Text
  | .commandLine => "findref.cli"
  | .discovery => "findref.scanner"
  | .project => "findref.orchestrator"
  | .history => "findref.git"
  | .regions => "findref.parsing.regions"
  | .analysis => "findref.engine"

/-- Whether a part traces the analysis of single files. -/
def isTrace (source : LogSource) : Bool := source == .regions || source == .analysis

end LogSource

structure LogEntry where
  level : LogLevel
  source : LogSource
  message : Text

namespace LogEntry

/-- A line that shows the message only. -/
def brief (entry : LogEntry) : Text := entry.level.label ++ " " ++ entry.message

def full (entry : LogEntry) : Text :=
  entry.level.label ++ " " ++ entry.source.label ++ ": " ++ entry.message

def debug (source : LogSource) (message : Text) : LogEntry := ⟨.debug, source, message⟩

end LogEntry

def SearchEnd.message? (tag : Text) : SearchEnd → Option Text
  | .exhausted => none
  | .unterminatedTag start =>
    some ("Unterminated <" ++ tag ++ "> tag at offset " ++ Text.ofNat start ++ "; abandoning scan")
  | .missingClose tagEnd =>
    some ("Missing </" ++ tag ++ "> after offset " ++ Text.ofNat tagEnd ++ "; abandoning scan")

/-- What the analysis of a file tells about it. -/
def Analysis.trace (source : Text) (analysis : Analysis) : List LogEntry :=
  let searches := [("script" : Text), "style"].filterMap fun tag =>
    (elements tag source).stop.message? tag
  let count := fun (n : Nat) => Text.ofNat n
  searches.map (LogEntry.debug .regions) ++ [
    .debug .regions ("Found " ++ count analysis.scripts.length ++ " script and " ++
      count analysis.styles.length ++ " style regions"),
    .debug .analysis ("Analysed " ++ analysis.filePath ++ ": " ++ count analysis.selectors.length ++
      " selectors, " ++ count analysis.functions.length ++ " functions, " ++
      count analysis.scriptVariables.length ++ " variables")]

end ComponentAudit
