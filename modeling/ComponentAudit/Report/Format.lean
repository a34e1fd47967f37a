import ComponentAudit.Finding
import ComponentAudit.Text.Lowercase

/-!
Output formats, and what can be wrong with a request for a report.
-/

namespace ComponentAudit

inductive OutputFormat where
  | text
  | json
  | csv
  deriving DecidableEq

namespace OutputFormat

def label : OutputFormat → Text
  | .text => "text"
  | .json => "json"
  | .csv => "csv"

def formats : List OutputFormat := [.text, .json, .csv]

def ofText? (t : Text) : Option OutputFormat := formats.find? (·.label == t)

end OutputFormat

inductive ReportError where
  | unsupportedFormat (name : Text)
  | unknownMode (name : Text)

def ReportError.message : ReportError → Text
  | .unsupportedFormat name => "Unsupported output format '" ++ name ++ "'"
  | .unknownMode name => "Unknown filter mode '" ++ name ++ "'"

/-- Reads the name of a format, whatever its case. -/
def OutputFormat.read (name : Text) : Except ReportError OutputFormat :=
  let name := Text.lower name
  match OutputFormat.ofText? name with
  | some format => .ok format
  | none => .error (.unsupportedFormat name)

def FilterMode.read (name : Text) : Except ReportError FilterMode :=
  match FilterMode.ofText? name with
  | some mode => .ok mode
  | none => .error (.unknownMode name)

end ComponentAudit
