import ComponentAudit.Json.Writer
import ComponentAudit.Report.Csv
import ComponentAudit.Report.Encode
import ComponentAudit.Report.Format

/-!
Reports on a whole analysis: as JSON, as records, and as text for people.
-/

namespace ComponentAudit

def Position.bracketed (position : Position) : Text :=
  "[" ++ Text.ofNat position.line ++ ":" ++ Text.ofNat position.column ++ "]"

def Position.plain (position : Position) : Text :=
  Text.ofNat position.line ++ ":" ++ Text.ofNat position.column

def commaList (items : List Text) : Text := Text.join ", " items

def usagePlaces (usages : List Usage) : Text := commaList (usages.map (·.position.bracketed))

def usagePlacesInElements (usages : List Usage) : Text :=
  commaList (usages.map fun usage =>
    match usage.elementName with
    | some (c :: name) => c :: name ++ " " ++ usage.position.bracketed
    | _ => usage.position.bracketed)

/-- Lines as a text, each line with its line feed. -/
def unlines (lines : List Text) : Text := Text.join "\n" lines ++ "\n"

def stack (groups : List (List Text)) : List Text := groups.flatten

/-- The lines of a group that is shown only if there is something to show. -/
def unlessEmpty {α : Type} (items : List α) (lines : List Text) : List Text :=
  if items.isEmpty then [] else lines

/-- Each item with its number, counted from one. -/
def numbered {α : Type} (items : List α) : List (α × Text) :=
  items.zipIdx.map fun (item, index) => (item, Text.ofNat (index + 1))

def SelectorKind.mark : SelectorKind → Text
  | .cssClass => "."
  | .id => "#"
  | _ => []

/-- A selector as reports name it: the name of a class or id with its mark, else the whole text. -/
def StyleSelector.title (selector : StyleSelector) : Text :=
  match selector.kind with
  | .cssClass | .id => selector.kind.mark ++ selector.name
  | _ => selector.selectorText

namespace Analysis

def csvHeader : List Text := ["File", "Type", "Name", "Line", "Column", "Details"]

def csvRecord (path type name : Text) (position : Position) (details : Text) : List Text :=
  [path, type, name, Text.ofNat position.line, Text.ofNat position.column, details]

/-- An analysis as records, one for each declaration and each override. -/
def csvRecords (analysis : Analysis) : List (List Text) :=
  let record := csvRecord analysis.filePath
  analysis.scriptVariables.map (fun found =>
      record "Variable" found.name found.position found.kind.label) ++
    analysis.functions.map (fun found =>
      record "Function" found.name found.position found.kind.label) ++
    analysis.imports.map (fun found =>
      record "Import" found.modulePath found.position found.kind.label) ++
    analysis.componentImports.map (fun found =>
      record "Component" found.componentName found.position found.modulePath) ++
    analysis.selectors.map (fun found =>
      record "CSSSelector" found.name found.position found.kind.label) ++
    analysis.overrides.map (fun found =>
      record "CSSOverride" found.property found.position found.conflictsWith)

def styleLine (region : StyleRegion) (number : Text) : Text :=
  let range : Text := match region.startPosition, region.endPosition with
    | some start, some stop => "[Range " ++ start.plain ++ " - " ++ stop.plain ++ "] - "
    | _, _ => []
  let language : Text :=
    if region.language == "css" || region.language.isEmpty then []
    else " (lang: " ++ region.language ++ ")"
  let scope : Text := if region.isScoped then "Scoped" else "Global"
  "  " ++ number ++ ". " ++ range ++ scope ++ " styles" ++ language

def styleLines (analysis : Analysis) : List Text :=
  let styles := analysis.styles
  let imports := analysis.styleImports
  stack [
    ["- <style> declaration count: " ++ Text.ofNat styles.length],
    unlessEmpty styles ["- Style blocks:"],
    (numbered styles).map fun (region, number) => styleLine region number,
    ["- Count of imported CSS: " ++ Text.ofNat imports.length],
    unlessEmpty imports ["- List of imported CSS:"],
    (numbered imports).map fun (found, number) =>
      "  " ++ number ++ ". " ++ found.path ++ " [imported at " ++ found.position.plain ++ "]"]

def overrideLines (analysis : Analysis) : List Text :=
  let overrides := analysis.overrides
  stack [
    unlessEmpty overrides ["", "CSS Override Analysis:",
      "- Property conflicts detected: " ++ Text.ofNat overrides.length],
    (numbered overrides).flatMap fun (found, number) => [
      "  " ++ number ++ ". '" ++ found.property ++ "' property overridden at " ++
        found.position.bracketed ++ " (specificity: " ++ Text.ofNat found.specificity ++ ")",
      "     " ++ found.conflictsWith]]

def selectorLines (unusedLabel : Option Text) (selector : StyleSelector) : List Text :=
  let marked := selector.kind == .cssClass || selector.kind == .id
  let usages := selector.htmlUsages
  let places := if marked then usagePlacesInElements usages else usagePlaces usages
  stack [
    ["- '" ++ selector.title ++ "' declared at " ++ selector.position.bracketed ++ " in " ++
      selector.sourceBlock],
    unlessEmpty selector.properties ["  Properties: " ++ commaList selector.properties],
    unlessEmpty usages ["  Used in HTML at: " ++ places],
    if usages.isEmpty then (unusedLabel.map fun label => ("   " : Text) ++ label).toList else []]

def selectorSection (analysis : Analysis) (kind : SelectorKind) (title : Text)
    (unusedLabel : Option Text) : List Text :=
  let selectors := analysis.selectors.filter (·.kind == kind)
  stack [
    unlessEmpty selectors ["", title ++ ":"],
    selectors.flatMap (selectorLines unusedLabel)]

def selectorSections (analysis : Analysis) : List Text :=
  stack [
    unlessEmpty analysis.selectors ["", "CSS Selector Usage Analysis:"],
    analysis.selectorSection .cssClass "Classes" (some "Unused CSS class"),
    analysis.selectorSection .id "IDs" (some "Unused CSS ID"),
    analysis.selectorSection .element "Element Selectors" none,
    analysis.selectorSection .attribute "Attribute Selectors" none,
    analysis.selectorSection .descendant "Descendant Selectors" none]

def usedLine (lead : Text) (usages : List Usage) : List Text :=
  unlessEmpty usages [lead ++ usagePlaces usages]

def variableLines (label : Text) (found : Variable) : List Text :=
  stack [
    ["- '" ++ found.name ++ "' (" ++ label ++ ") declared at " ++ found.position.bracketed],
    unlessEmpty found.dependencies ["  Dependencies: " ++ commaList found.dependencies],
    usedLine "  Used at: " found.usages]

/-- The lines on the variables of some kinds, under a heading. -/
def variableSection (heading : List Text) (shown : List Variable)
    (label : Variable → Text) : List Text :=
  stack [
    unlessEmpty shown heading,
    shown.flatMap fun found => variableLines (label found) found]

def functionLines (found : Function) : List Text :=
  let qualifiers := stack [
    [found.kind.label], if found.isAsync then ["async"] else [],
    if found.isExported then ["exported"] else []]
  stack [
    ["- '" ++ found.name ++ "()' (" ++ commaList qualifiers ++ ") declared at " ++
      found.position.bracketed],
    usedLine "  Called at: " found.usages]

def referenceLines (analysis : Analysis) : List Text :=
  let ofKind := fun (kind : VariableKind) => analysis.scriptVariables.filter (·.kind == kind)
  let plain := ofKind .letBinding ++ ofKind .constBinding ++ ofKind .varBinding
  stack [
    ["", "Reference Analysis:", ""],
    variableSection ["Variables:"] plain (·.kind.label),
    variableSection ["", "Reactive Variables:"] (ofKind .reactive) (fun _ => "reactive"),
    variableSection ["", "Component Props:"] (ofKind .prop) (fun _ => "export let"),
    unlessEmpty analysis.functions ["", "Functions:"],
    analysis.functions.flatMap functionLines]

def importedAt (position : Position) : Text := " [imported at " ++ position.plain ++ "]"

def staticImportLines (found : Import) : List Text :=
  stack [
    ["- '" ++ commaList found.symbols ++ "' from '" ++ found.modulePath ++ "'" ++
      importedAt found.position],
    usedLine "  Used at: " found.usages]

def componentLines (found : ComponentImport) : List Text :=
  stack [
    ["- '" ++ found.componentName ++ "' from '" ++ found.modulePath ++ "'" ++
      importedAt found.position],
    if found.isUsed then usedLine "  Used at: " found.usages else ["   Unused component"]]

def importLines (analysis : Analysis) : List Text :=
  let static := analysis.imports.filter (·.kind == .static)
  let dynamic := analysis.imports.filter (·.kind == .dynamic)
  stack [
    ["", "Import Analysis:", ""],
    unlessEmpty static ["ES6 Imports:"],
    static.flatMap staticImportLines,
    unlessEmpty dynamic ["", "Dynamic Imports:"],
    dynamic.map fun found => "- '" ++ found.modulePath ++ "'" ++ importedAt found.position,
    unlessEmpty analysis.componentImports ["", "Component Imports:"],
    analysis.componentImports.flatMap componentLines]

def tallyLines (tally : Tally) : List Text :=
  tally.map fun (name, value) => "- " ++ name ++ ": " ++ Text.ofInt value

/-- An analysis as text for people. -/
def describe (analysis : Analysis) : Text :=
  unlines <| stack [
    ["Title: " ++ analysis.filePath, "", "CSS Analysis:"], analysis.styleLines,
    analysis.overrideLines, analysis.selectorSections, analysis.referenceLines,
    analysis.importLines, ["", "Statistics:"], tallyLines analysis.statistics]

def render (analysis : Analysis) : OutputFormat → Text
  | .json => analysis.toJson.toText
  | .csv => Csv.write csvHeader analysis.csvRecords
  | .text => analysis.describe

end Analysis

end ComponentAudit
