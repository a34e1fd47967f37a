import ComponentAudit.CommandLine.Grammar
import ComponentAudit.Report.Format

/-!
The commands of the program. Options in front of the command apply to all of them; everything behind
it belongs to the command.
-/

namespace ComponentAudit

inductive Command where
  | scan (path : Text) (mode : Option FilterMode)
  | commit (revision path : Text)
  | compare (before after path : Text)
  | serve (host : Text) (port : Int)

structure ReportRequest where
  format : Option OutputFormat := none
  output : Option Text := none
  extensions : Option Text := none
  settings : Option Text := none

structure Invocation where
  verbose : Bool
  logFile : Option Text
  command : Command
  report : ReportRequest

namespace Command

def name : Command → Text
  | .scan .. => "scan"
  | .commit .. => "commit"
  | .compare .. => "compare"
  | .serve .. => "serve"

def names : List Text := ["scan", "commit", "compare", "serve"]

/-- The path that a command is about; the current directory for one that is about none. -/
def path : Command → Text
  | .scan path _ => path
  | .commit _ path => path
  | .compare _ _ path => path
  | .serve .. => "."

end Command

namespace Invocation

def valueOption (names : List Text) (rule : ValueRule) : OptionSpec := ⟨names, .value rule⟩

def helpOption : OptionSpec := ⟨["-h", "--help"], .help⟩

def verboseOption : OptionSpec := ⟨["-v", "--verbose"], .flag⟩

/-- The options in front of the command. -/
def generalGrammar : Grammar where
  options := [helpOption, verboseOption, valueOption ["--log-file"] .any]
  operands := []

def reportOptions : List OptionSpec := [
  valueOption ["-f", "--format"] (.oneOf (OutputFormat.formats.map OutputFormat.label)),
  valueOption ["-o", "--output"] .any,
  valueOption ["--extensions"] .any,
  valueOption ["--config"] .any,
  verboseOption]

def pathOperand : OperandSpec := ⟨"path", false⟩

def commandGrammar (name : Text) : Grammar :=
  if name == "scan" then {
    options := [helpOption,
      valueOption ["--filter"] (.oneOf (FilterMode.modes.map FilterMode.label))] ++ reportOptions
    operands := [pathOperand] }
  else if name == "commit" then {
    options := helpOption :: reportOptions
    operands := [⟨"revision", true⟩, pathOperand] }
  else if name == "compare" then {
    options := helpOption :: reportOptions
    operands := [⟨"before", true⟩, ⟨"after", true⟩, pathOperand] }
  else {
    options := [helpOption, valueOption ["--host"] .any, valueOption ["--port"] .integer,
      verboseOption]
    operands := [] }

def commandOf (name : Text) (matched : Matched) : Command :=
  let operand := fun (name : Text) => (matched.get? name).getD []
  let path := (matched.get? "path").getD ['.']
  if name == "scan" then .scan path ((matched.get? "--filter").bind FilterMode.ofText?)
  else if name == "commit" then .commit (operand "revision") path
  else if name == "compare" then .compare (operand "before") (operand "after") path
  else .serve ((matched.get? "--host").getD "127.0.0.1")
    (((matched.get? "--port").bind integer?).getD 8000)

/-- A value that is not empty. -/
def given? (matched : Matched) (name : Text) : Option Text :=
  (matched.get? name).filter (!·.isEmpty)

def reportOf (matched : Matched) : ReportRequest where
  format := (matched.get? "--format").bind OutputFormat.ofText?
  output := given? matched "--output"
  extensions := given? matched "--extensions"
  settings := given? matched "--config"

/-- Matches the options in front of the command, and gives the words from the command on. -/
def leading : Nat → List Word → Matched → Except Stop (Matched × List Word)
  | 0, words, matched => .ok (matched, words)
  | bound + 1, words, matched =>
    match words with
    | .option option name value :: rest => do
      let length := (value.map List.length).getD 0
      let (matched, rest) ←
        Matched.takeOption generalGrammar (length + 1) option name value rest matched
      leading bound rest matched
    | .unknown text :: rest => leading bound rest (matched.addExtras [text])
    | _ => .ok (matched, words)

def read (words : List Text) : Except Stop Invocation := do
  let classified ← generalGrammar.classifyAll words
  let (general, rest) ← leading (words.length + 1) classified {}
  match words.drop (words.length - rest.length) with
  | [] => .error (.wrong (.missingOperands ["command"]))
  | name :: behind =>
    if !rest.any Word.isOperand then .error (.wrong (.missingOperands ["command"]))
    else if !Command.names.contains name then
      .error (.wrong (.invalidChoice "command" name Command.names))
    else
      let matched ← (commandGrammar name).read behind
      let extras := general.extras ++ matched.extras
      if !extras.isEmpty then .error (.wrong (.unrecognized extras))
      else return {
        verbose := general.has "--verbose" || matched.has "--verbose"
        logFile := given? general "--log-file"
        command := commandOf name matched
        report := reportOf matched }

end Invocation

end ComponentAudit
