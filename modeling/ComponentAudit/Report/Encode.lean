import ComponentAudit.Finding
import ComponentAudit.Json.Value

/-!
Analyses and findings as JSON values. The order of members is part of the format.
-/

namespace ComponentAudit

def Position.toJson (position : Position) : Json :=
  .obj [("line", .nat position.line), ("column", .nat position.column)]

def Usage.toJson (usage : Usage) : Json :=
  .obj [("position", usage.position.toJson), ("context", .str usage.context),
    ("element", .ofOption .str usage.elementName),
    ("attribute", .ofOption .str usage.attributeName)]

def usagesJson (usages : List Usage) : Json := .arr (usages.map Usage.toJson)

def Attributes.toJson (attributes : Attributes) : Json :=
  .obj (attributes.map fun (name, value) => (name, .str value))

def ElementSpan.toMembers (span : ElementSpan) : List (Text × Json) :=
  [("start", .nat span.bodyStart), ("end", .nat span.bodyEnd),
    ("element_start", .nat span.elementStart), ("element_end", .nat span.elementEnd)]

def ScriptRegion.toJson (region : ScriptRegion) : Json :=
  .concat [region.span.toMembers, [("language", .ofOption .str region.language),
    ("is_module_context", .bool region.isModuleContext),
    ("attributes", region.attributes.toJson)]]

def StyleRegion.toJson (region : StyleRegion) : Json :=
  .concat [region.span.toMembers, [("index", .nat region.index), ("language", .str region.language),
    ("is_scoped", .bool region.isScoped), ("attributes", region.attributes.toJson),
    ("start_position", .ofOption Position.toJson region.startPosition),
    ("end_position", .ofOption Position.toJson region.endPosition)]]

def StyleImport.toJson (found : StyleImport) : Json :=
  .obj [("path", .str found.path), ("position", found.position.toJson), ("kind", .str "@import")]

def Variable.toJson (found : Variable) : Json :=
  .obj [("name", .str found.name), ("kind", .str found.kind.label),
    ("position", found.position.toJson), ("offset", .nat found.offset),
    ("name_offset", .nat found.nameOffset), ("dependencies", .texts found.dependencies),
    ("usages", usagesJson found.usages)]

def Import.toJson (found : Import) : Json :=
  .obj [("module_path", .str found.modulePath), ("kind", .str found.kind.label),
    ("position", found.position.toJson), ("offset", .nat found.offset),
    ("end_offset", .nat found.endOffset), ("symbols", .texts found.symbols),
    ("usages", usagesJson found.usages)]

def Function.toJson (found : Function) : Json :=
  .obj [("name", .str found.name), ("kind", .str found.kind.label),
    ("position", found.position.toJson), ("offset", .nat found.offset),
    ("is_exported", .bool found.isExported), ("is_async", .bool found.isAsync),
    ("usages", usagesJson found.usages)]

def StyleSelector.toJson (found : StyleSelector) : Json :=
  .obj [("selector_text", .str found.selectorText), ("kind", .str found.kind.label),
    ("name", .str found.name), ("position", found.position.toJson),
    ("source_block", .str found.sourceBlock), ("properties", .texts found.properties),
    ("html_usages", usagesJson found.htmlUsages)]

def StyleOverride.toJson (found : StyleOverride) : Json :=
  .obj [("property", .str found.property), ("selector", .str found.selector),
    ("position", found.position.toJson), ("specificity", .nat found.specificity),
    ("important", .bool found.important), ("previous", found.previous.toJson)]

def ComponentImport.toMembers (found : ComponentImport) : List (Text × Json) :=
  [("component_name", .str found.componentName), ("module_path", .str found.modulePath),
    ("position", found.position.toJson), ("usages", usagesJson found.usages)]

def ComponentUsage.toJson (found : ComponentUsage) : Json :=
  .obj [("component_name", .str found.componentName), ("position", found.position.toJson),
    ("context", .str found.context)]

def Tally.toJson (tally : Tally) : Json := .obj (tally.map fun (name, value) => (name, .int value))

def Analysis.toJson (analysis : Analysis) : Json :=
  .obj [("file_path", .str analysis.filePath),
    ("scripts", .arr (analysis.scripts.map ScriptRegion.toJson)),
    ("styles", .arr (analysis.styles.map StyleRegion.toJson)),
    ("css_imports", .arr (analysis.styleImports.map StyleImport.toJson)),
    ("variables", .arr (analysis.scriptVariables.map Variable.toJson)),
    ("imports", .arr (analysis.imports.map Import.toJson)),
    ("functions", .arr (analysis.functions.map Function.toJson)),
    ("css_selectors", .arr (analysis.selectors.map StyleSelector.toJson)),
    ("css_overrides", .arr (analysis.overrides.map StyleOverride.toJson)),
    ("component_imports", .arr (analysis.componentImports.map fun found => .obj found.toMembers)),
    ("component_usages", .arr (analysis.componentUsages.map ComponentUsage.toJson)),
    ("statistics", analysis.statistics.toJson)]

/-- The line and column of a finding. -/
def Position.toMembers (position : Position) : List (Text × Json) :=
  [("line", .nat position.line), ("column", .nat position.column)]

/-- The findings of a file, each with what is needed to act on it. -/
def Findings.toJson (findings : Findings) : Json :=
  .obj [("file_path", .str findings.filePath),
    ("unused_selectors", .arr (findings.unusedSelectors.map fun found =>
      .concat [[("kind", .str found.kind.label), ("name", .str found.name),
        ("selector", .str found.selectorText)], found.position.toMembers,
        [("source_block", .str found.sourceBlock)]])),
    ("css_overrides", .arr (findings.overrides.map fun found =>
      .concat [[("property", .str found.property), ("selector", .str found.selector)],
        found.position.toMembers, [("specificity", .nat found.specificity),
        ("important", .bool found.important), ("conflicts_with", .str found.conflictsWith)]])),
    ("no_css", .bool findings.noStyles),
    ("dead_functions", .arr (findings.deadFunctions.map fun found =>
      .concat [[("name", .str found.name), ("kind", .str found.kind.label)],
        found.position.toMembers])),
    ("dead_variables", .arr (findings.deadVariables.map fun found =>
      .concat [[("name", .str found.name), ("kind", .str found.kind.label)],
        found.position.toMembers])),
    ("unused_components", .arr (findings.unusedComponents.map fun found =>
      .concat [[("name", .str found.componentName), ("module_path", .str found.modulePath)],
        found.position.toMembers])),
    ("unused_imports", .arr (findings.unusedImports.map fun found =>
      .concat [[("module_path", .str found.modulePath), ("symbols", .texts found.symbols)],
        found.position.toMembers]))]

end ComponentAudit
