import ComponentAudit.Report.FindingReport

/-!
Reports on several files. Without a mode, the files with something to fix are shown in full; with a
mode, the findings that it reports.
-/

namespace ComponentAudit

def fileSeparator : Text := "\n" ++ Findings.rule 80 ++ "\n"

/-- The files with at least one finding. -/
def withOpportunities (rules : Suppression) (analyses : List Analysis) : List Analysis :=
  analyses.filter fun analysis => 0 < (Findings.ofAnalysis rules analysis).opportunityCount

/-- The files with something to fix, in full. -/
def renderAnalyses (rules : Suppression) (format : OutputFormat) (analyses : List Analysis) : Text :=
  let shown := withOpportunities rules analyses
  match format with
  | .json => (Json.arr (shown.map Analysis.toJson)).toText
  | .csv => Csv.write Analysis.csvHeader (shown.flatMap Analysis.csvRecords)
  | .text => Text.join fileSeparator (shown.map Analysis.describe)

/-- The findings of a mode, for the files that have any. -/
def restrictedFindings (rules : Suppression) (mode : FilterMode) (analyses : List Analysis) :
    List Findings :=
  (analyses.map fun analysis => (Findings.ofAnalysis rules analysis).restrict mode).filter
    (!·.isEmpty)

def renderFindings (rules : Suppression) (format : OutputFormat) (mode : FilterMode)
    (analyses : List Analysis) : Text :=
  let shown := restrictedFindings rules mode analyses
  match format with
  | .json => (Json.arr (shown.map Findings.toJson)).toText
  | .csv => Csv.write Findings.csvHeader (shown.flatMap Findings.csvRecords)
  | .text =>
    Text.join fileSeparator <|
      (shown.map fun findings => findings.render mode .text).filter fun part => !Text.isBlank part

def renderScan (rules : Suppression) (format : OutputFormat) (mode : Option FilterMode)
    (analyses : List Analysis) : Text :=
  match mode with
  | none => renderAnalyses rules format analyses
  | some mode => renderFindings rules format mode analyses

end ComponentAudit
