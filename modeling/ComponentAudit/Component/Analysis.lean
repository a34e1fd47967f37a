import ComponentAudit.Style.Override
import ComponentAudit.Tally
import ComponentAudit.Usage.Component
import ComponentAudit.Usage.Script
import ComponentAudit.Usage.Selector

/-!
The analysis of one component file. Reading the file gives its declarations; passes then fill in the
overrides, the uses and the statistics. Every text has an analysis.
-/

namespace ComponentAudit

/-- Everything found in one component file. -/
structure Analysis where
  filePath : Text
  scripts : List ScriptRegion
  styles : List StyleRegion
  styleImports : List StyleImport
  scriptVariables : List Variable
  imports : List Import
  functions : List Function
  selectors : List StyleSelector
  overrides : List StyleOverride := []
  componentImports : List ComponentImport
  componentUsages : List ComponentUsage := []
  statistics : Tally := []

namespace Analysis

structure ScriptDeclarations where
  scriptVariables : List Variable
  functions : List Function
  imports : List Import

def declarations (t : Text) (index : LineIndex) (region : ScriptRegion) : ScriptDeclarations :=
  let script := Comment.maskScript (region.span.body t)
  let base := region.span.bodyStart
  let scriptVariables := Variable.findAll script ((Function.boundFunctions script).map (·.offset))
  let names := scriptVariables.map (·.name)
  { imports := (Import.findAll script).map fun found => {
      modulePath := found.modulePath, kind := found.kind
      position := index.position (base + found.start)
      offset := base + found.start, endOffset := base + found.stop, symbols := found.symbols }
    functions := (Function.findAll script).map fun found => {
      name := found.name, kind := found.kind
      position := index.position (base + found.offset)
      offset := base + found.offset, isExported := found.isExported, isAsync := found.isAsync }
    scriptVariables := scriptVariables.map fun found => {
      name := found.name, kind := found.kind
      position := index.position (base + found.nameOffset)
      offset := base + found.statement, nameOffset := base + found.nameOffset
      dependencies :=
        if found.kind == .reactive then
          Variable.mentionedNames names found.name (Variable.rightHandSide script found.nameOffset)
        else [] } }

def placeRegion (index : LineIndex) (region : StyleRegion) : StyleRegion :=
  { region with
    startPosition := some (index.position region.span.elementStart)
    endPosition := some (index.position region.span.elementEnd) }

/-- Reads a component file: the document for the passes, and its declarations. -/
def read (source filePath : Text) (options : Options) : Document × Analysis :=
  let index := LineIndex.ofText source
  let regions := Regions.ofText source
  let styles := regions.styles.map (placeRegion index)
  let sheets := styles.map fun region => Sheet.ofText (region.span.body source)
  let blocks := styles.zip sheets
  let found := regions.scripts.map (declarations source index)
  let imports := found.flatMap (·.imports)
  ({ text := source, index, markup := Markup.ofRegions source regions, sheets, options },
    { filePath
      scripts := regions.scripts
      styles
      styleImports := blocks.flatMap fun (region, sheet) => StyleImport.ofSheet index region sheet
      scriptVariables := found.flatMap (·.scriptVariables)
      imports
      functions := found.flatMap (·.functions)
      selectors := blocks.flatMap fun (region, sheet) => StyleSelector.ofSheet index region sheet
      componentImports := imports.filterMap ComponentImport.ofImport? })

/-- Fills in the overrides, if there are style elements. -/
def withOverrides (analysis : Analysis) (document : Document) : Analysis :=
  if analysis.styles.isEmpty then analysis
  else
    { analysis with
      overrides := StyleOverride.findAll document.index (analysis.styles.zip document.sheets) }

/-- Fills in the uses, unless the file is empty. A selector that has uses keeps them. -/
def withUsages (analysis : Analysis) (document : Document) : Analysis :=
  if document.text.isEmpty then analysis
  else
    let componentUsages := ComponentUsage.findAll document
    let attributes := ClassAttribute.findAll document.markup.text
    { analysis with
      scriptVariables := analysis.scriptVariables.map fun found =>
        { found with usages := found.findUsages document analysis.scripts }
      functions := analysis.functions.map fun found =>
        { found with usages := found.findUsages document }
      imports := analysis.imports.map fun found =>
        { found with usages := found.findUsages document }
      componentUsages
      componentImports := analysis.componentImports.map (·.link componentUsages)
      selectors := analysis.selectors.map fun selector =>
        if selector.htmlUsages.isEmpty then
          { selector with htmlUsages := selector.findUsages document attributes }
        else selector }

/-- The counters of an analysis, in the order in which they are reported. Used and unused are told
apart by uses alone, not by what is worth reporting. -/
def countStatistics (t : Text) (analysis : Analysis) : Tally :=
  let selectors := analysis.selectors.length
  let usedSelectors := analysis.selectors.countP (!·.htmlUsages.isEmpty)
  let functions := analysis.functions.length
  let usedFunctions := analysis.functions.countP (!·.usages.isEmpty)
  let components := analysis.componentImports.length
  let usedComponents := analysis.componentImports.countP (·.isUsed)
  let count := fun (name : Text) (n : Nat) => (name, (n : Int))
  [ count "style_block_count" analysis.styles.length,
    count "css_import_count" analysis.styleImports.length,
    count "variable_count" analysis.scriptVariables.length,
    count "import_count" analysis.imports.length,
    count "css_override_count" analysis.overrides.length,
    count "css_selector_count" selectors,
    count "used_css_selectors" usedSelectors,
    count "unused_css_selectors" (selectors - usedSelectors),
    count "js_function_count" functions,
    count "used_js_functions" usedFunctions,
    count "unused_js_functions" (functions - usedFunctions),
    count "component_import_count" components,
    count "used_components" usedComponents,
    count "unused_components" (components - usedComponents),
    count "total_lines" (t.count '\n' + 1) ]

def withStatistics (analysis : Analysis) (document : Document) : Analysis :=
  { analysis with statistics := countStatistics document.text analysis }

def statisticNames : List Text := [
  "style_block_count", "css_import_count", "variable_count", "import_count", "css_override_count",
  "css_selector_count", "used_css_selectors", "unused_css_selectors", "js_function_count",
  "used_js_functions", "unused_js_functions", "component_import_count", "used_components",
  "unused_components", "total_lines"]

/-- The counters of several files together, the number of files first. -/
def totals (analyses : List Analysis) : Tally :=
  analyses.foldl (fun tally analysis => (tally.add ("total_files", 1)).addAll analysis.statistics)
    (("total_files", 0) :: statisticNames.map fun name => (name, 0))

end Analysis

/-- A step that fills in part of an analysis. -/
inductive Pass where
  | overrides
  | usages
  | statistics
  deriving DecidableEq

namespace Pass

def run (document : Document) (analysis : Analysis) : Pass → Analysis
  | .overrides => analysis.withOverrides document
  | .usages => analysis.withUsages document
  | .statistics => analysis.withStatistics document

/-- The passes of a full analysis; the statistics count what the others found. -/
def all : List Pass := [.overrides, .usages, .statistics]

end Pass

/-- Analyses one component file with the given passes. -/
def analyzeWith (passes : List Pass) (source filePath : Text) (options : Options) : Analysis :=
  let (document, analysis) := Analysis.read source filePath options
  passes.foldl (Pass.run document) analysis

def analyze (source filePath : Text) (options : Options := {}) : Analysis :=
  analyzeWith Pass.all source filePath options

end ComponentAudit
