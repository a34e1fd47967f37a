import ComponentAudit.Report.AnalysisReport

/-!
Reports on findings: as JSON, as records, and as text for people. Nothing is written for a file
without findings.
-/

namespace ComponentAudit.Findings

def csvHeader : List Text :=
  ["File", "IssueType", "SelectorType", "Name", "Line", "Column", "Details"]

def csvRecord (path issue kind name : Text) (position : Position) (details : Text) : List Text :=
  [path, issue, kind, name, Text.ofNat position.line, Text.ofNat position.column, details]

def csvRecords (findings : Findings) : List (List Text) :=
  let record := csvRecord findings.filePath
  findings.unusedSelectors.map (fun found =>
      record "UnusedSelector" found.kind.label found.name found.position "Never used in HTML") ++
    findings.overrides.map (fun found =>
      record "PropertyConflict" "property" found.property found.position found.conflictsWith) ++
    (if findings.noStyles then
      [[findings.filePath, "NoCSS", "", "", "", "", "No <style> blocks or CSS imports detected"]]
      else []) ++
    findings.deadFunctions.map (fun found =>
      record "UnusedFunction" found.kind.label found.name found.position "Never called") ++
    findings.deadVariables.map (fun found =>
      record "UnusedVariable" found.kind.label found.name found.position "Never used") ++
    findings.unusedImports.map (fun found =>
      record "UnusedImport" found.kind.label (commaList found.symbols) found.position
        found.modulePath) ++
    findings.unusedComponents.map (fun found =>
      record "UnusedComponent" "component" found.componentName found.position found.modulePath)

/-- A heading with the lines of its items and an empty line, or nothing without items. -/
def headed {α : Type} (heading : Text) (items : List α) (lines : α → List Text) : List Text :=
  unlessEmpty items (stack [[heading], items.flatMap lines, [""]])

/-- The findings in styles, or nothing if there are none. -/
def describeStyles (findings : Findings) : Text :=
  if !findings.hasStyleIssues then []
  else
    unlines <| stack [
      [" CSS Issues in: " ++ findings.filePath, ""],
      headed " Unused CSS Classes/IDs:" findings.unusedSelectors fun found => [
        "- '" ++ found.title ++ "' declared at " ++ found.position.bracketed,
        "   Never used in HTML"],
      headed " CSS Property Conflicts:" findings.overrides fun found => [
        "- '" ++ found.property ++ "' overridden at " ++ found.position.bracketed,
        "  " ++ found.conflictsWith],
      if findings.noStyles then [
        " No CSS Found:", "- No <style> blocks or CSS imports detected",
        "  Consider adding styles or importing CSS", ""]
      else []]

def describeDeadCode (findings : Findings) : Text :=
  if !findings.hasDeadCode then []
  else
    unlines <| stack [
      [" Dead Code in: " ++ findings.filePath, ""],
      headed " Unused Functions:" findings.deadFunctions fun found => [
        "- '" ++ found.name ++ "()' declared at " ++ found.position.bracketed,
        "   Never called"],
      headed " Unused Variables:" findings.deadVariables fun found => [
        "- '" ++ found.name ++ "' declared at " ++ found.position.bracketed, "   Never used"],
      headed " Unused Imports:" findings.unusedImports fun found => [
        "- '" ++ commaList found.symbols ++ "' from '" ++ found.modulePath ++ "' imported at " ++
          found.position.bracketed, "   Never used"]]

def describeComponents (findings : Findings) : Text :=
  if !findings.hasUnusedComponents then []
  else
    unlines <| stack [
      [" Unused Components in: " ++ findings.filePath, "", " Imported but Never Used:"],
      findings.unusedComponents.flatMap fun found => [
        "- '" ++ found.componentName ++ "' from '" ++ found.modulePath ++ "'",
        "   Remove import"]]

def rule (width : Nat) : Text := List.replicate width '='

/-- All findings under one title with their number, or nothing if there are none. -/
def describeAll (findings : Findings) : Text :=
  let sections := [findings.describeStyles, findings.describeDeadCode, findings.describeComponents]
  let shown := sections.filter (!·.isEmpty)
  if shown.isEmpty then []
  else
    " REFACTORING REPORT: " ++ findings.filePath ++ "\n" ++ rule 80 ++ "\n\n" ++
      shown.flatMap (fun part => part ++ ['\n']) ++
      " SUMMARY: " ++ Text.ofNat findings.opportunityCount ++ " refactoring opportunities found\n"

/-- Findings as text for people, in the manner of a mode. -/
def describe (findings : Findings) : FilterMode → Text
  | .css => findings.describeStyles
  | .deadCode => findings.describeDeadCode
  | .components => findings.describeComponents
  | .all => findings.describeAll

/-- The findings that a mode reports, in a format; nothing if there are none. -/
def render (findings : Findings) (mode : FilterMode) (format : OutputFormat) : Text :=
  let shown := findings.restrict mode
  if shown.isEmpty then []
  else
    match format with
    | .json => shown.toJson.toText
    | .csv => Csv.write csvHeader shown.csvRecords
    | .text => shown.describe mode

end ComponentAudit.Findings
