import ComponentAudit.Component.Analysis

/-!
What is worth fixing in a component file: declarations without uses, less those that a rule
suppresses, and overridden properties. A finding is a candidate for removal, not a proof.
-/

namespace ComponentAudit

/-- The rules that keep an unused declaration from being reported. -/
structure Suppression where
  /-- Methods that are never reported, besides those of the platform. -/
  extraBuiltins : List Text := []

namespace Suppression

/-- Whether a function is reported: neither used nor exported, nor named like a keyword or a method
of the platform. -/
def reportsFunction (rules : Suppression) (found : Function) : Bool :=
  found.usages.isEmpty && !found.isExported && !Vocabulary.isControlKeyword found.name &&
    !Vocabulary.builtinMethods.contains found.name && !rules.extraBuiltins.contains found.name

/-- Whether a variable is reported: not used, not reactive and not a store subscription. -/
def reportsVariable (found : Variable) : Bool :=
  found.usages.isEmpty && found.kind != .reactive && found.name.head? != some '$'

def reportsSelector (found : StyleSelector) : Bool := found.htmlUsages.isEmpty && !found.isGlobal

def reportsComponent (found : ComponentImport) : Bool := !found.isUsed

/-- Whether an import is reported: static, binding names that are not used, and not of a component,
which is reported as such. -/
def reportsImport (found : Import) : Bool :=
  found.kind == .static && !found.symbols.isEmpty && found.usages.isEmpty &&
    !isComponentPath found.modulePath

end Suppression

/-- Everything worth fixing in one file. -/
structure Findings where
  filePath : Text
  unusedSelectors : List StyleSelector := []
  overrides : List StyleOverride := []
  noStyles : Bool := false
  deadFunctions : List Function := []
  deadVariables : List Variable := []
  unusedComponents : List ComponentImport := []
  unusedImports : List Import := []

inductive FilterMode where
  | css
  | deadCode
  | components
  | all
  deriving DecidableEq

namespace FilterMode

def label : FilterMode → Text
  | .css => "css"
  | .deadCode => "dead-code"
  | .components => "components"
  | .all => "all"

def modes : List FilterMode := [.css, .deadCode, .components, .all]

def ofText? (t : Text) : Option FilterMode := modes.find? (·.label == t)

def showsStyles (mode : FilterMode) : Bool := mode == .css || mode == .all

def showsScripts (mode : FilterMode) : Bool := mode == .deadCode || mode == .all

def showsComponents (mode : FilterMode) : Bool := mode == .components || mode == .all

end FilterMode

namespace Findings

def ofAnalysis (rules : Suppression) (analysis : Analysis) : Findings where
  filePath := analysis.filePath
  unusedSelectors := analysis.selectors.filter Suppression.reportsSelector
  overrides := analysis.overrides
  noStyles := analysis.styles.isEmpty && analysis.styleImports.isEmpty
  deadFunctions := analysis.functions.filter rules.reportsFunction
  deadVariables := analysis.scriptVariables.filter Suppression.reportsVariable
  unusedComponents := analysis.componentImports.filter Suppression.reportsComponent
  unusedImports := analysis.imports.filter Suppression.reportsImport

/-- The number of single findings. The lack of styles is none. -/
def opportunityCount (findings : Findings) : Nat :=
  findings.unusedSelectors.length + findings.overrides.length + findings.deadFunctions.length +
    findings.deadVariables.length + findings.unusedComponents.length +
    findings.unusedImports.length

def hasStyleIssues (findings : Findings) : Bool :=
  !findings.unusedSelectors.isEmpty || !findings.overrides.isEmpty || findings.noStyles

def hasDeadCode (findings : Findings) : Bool :=
  !findings.deadFunctions.isEmpty || !findings.deadVariables.isEmpty ||
    !findings.unusedImports.isEmpty

def hasUnusedComponents (findings : Findings) : Bool := !findings.unusedComponents.isEmpty

def isEmpty (findings : Findings) : Bool :=
  !(findings.hasStyleIssues || findings.hasDeadCode || findings.hasUnusedComponents)

def restrict (findings : Findings) (mode : FilterMode) : Findings where
  filePath := findings.filePath
  unusedSelectors := if mode.showsStyles then findings.unusedSelectors else []
  overrides := if mode.showsStyles then findings.overrides else []
  noStyles := mode.showsStyles && findings.noStyles
  deadFunctions := if mode.showsScripts then findings.deadFunctions else []
  deadVariables := if mode.showsScripts then findings.deadVariables else []
  unusedComponents := if mode.showsComponents then findings.unusedComponents else []
  unusedImports := if mode.showsScripts then findings.unusedImports else []

end Findings

end ComponentAudit
