import ComponentAudit.Finding
import ComponentAudit.Proofs.Finding.Class
import ComponentAudit.Proofs.Finding.Component
import ComponentAudit.Proofs.Finding.Script

/-! # Findings against no evidence

Whatever a full analysis reports as unused has no direct evidence of a use in the file. Each entry of
an analysis is a declaration that was read, with the uses that were found for it, and rules only ever
take entries away. -/

namespace ComponentAudit

namespace Analysis

/-- The file as the searches for uses see it. -/
def documentOf (source path : Text) (options : Options) : Document := (read source path options).1

/-- The declarations of a file. -/
def declaredIn (source path : Text) (options : Options) : Analysis := (read source path options).2

theorem withOverrides_eq (analysis : Analysis) (document : Document) :
    ∃ overrides, analysis.withOverrides document = { analysis with overrides } := by
  rw [withOverrides]
  split
  · exact ⟨analysis.overrides, rfl⟩
  · exact ⟨_, rfl⟩

section Entries

variable {source path : Text} {options : Options}

theorem analyze_eq (source path : Text) (options : Options) : ∃ overrides statistics,
    analyze source path options =
      { withUsages { declaredIn source path options with overrides }
          (documentOf source path options) with statistics } := by
  obtain ⟨overrides, h⟩ := withOverrides_eq (declaredIn source path options)
    (documentOf source path options)
  refine ⟨overrides, countStatistics source
    (withUsages { declaredIn source path options with overrides } (documentOf source path options)), ?_⟩
  change withStatistics (withUsages (withOverrides (declaredIn source path options)
    (documentOf source path options)) (documentOf source path options))
    (documentOf source path options) = _
  rw [h]
  rfl

/-- A variable of an analysis was declared, and has the uses found for it. -/
theorem mem_scriptVariables {found : Variable}
    (h : found ∈ (analyze source path options).scriptVariables) :
    ∃ declared ∈ (declaredIn source path options).scriptVariables,
      found = { declared with
        usages := declared.findUsages (documentOf source path options)
          (Regions.ofText source).scripts } := by
  obtain ⟨overrides, statistics, heq⟩ := analyze_eq source path options
  rw [heq] at h
  cases source with
  | nil => cases h
  | cons c source =>
    obtain ⟨declared, hdeclared, rfl⟩ := List.mem_map.mp h
    exact ⟨declared, hdeclared, rfl⟩

theorem mem_functions {found : Function} (h : found ∈ (analyze source path options).functions) :
    ∃ declared ∈ (declaredIn source path options).functions,
      found = { declared with usages := declared.findUsages (documentOf source path options) } := by
  obtain ⟨overrides, statistics, heq⟩ := analyze_eq source path options
  rw [heq] at h
  cases source with
  | nil => cases h
  | cons c source =>
    obtain ⟨declared, hdeclared, rfl⟩ := List.mem_map.mp h
    exact ⟨declared, hdeclared, rfl⟩

theorem mem_imports {found : Import} (h : found ∈ (analyze source path options).imports) :
    ∃ declared ∈ (declaredIn source path options).imports,
      found = { declared with usages := declared.findUsages (documentOf source path options) } := by
  obtain ⟨overrides, statistics, heq⟩ := analyze_eq source path options
  rw [heq] at h
  cases source with
  | nil => cases h
  | cons c source =>
    obtain ⟨declared, hdeclared, rfl⟩ := List.mem_map.mp h
    exact ⟨declared, hdeclared, rfl⟩

theorem mem_componentImports {found : ComponentImport}
    (h : found ∈ (analyze source path options).componentImports) :
    ∃ declared ∈ (declaredIn source path options).componentImports,
      found = declared.link (ComponentUsage.findAll (documentOf source path options)) := by
  obtain ⟨overrides, statistics, heq⟩ := analyze_eq source path options
  rw [heq] at h
  cases source with
  | nil => cases h
  | cons c source =>
    obtain ⟨declared, hdeclared, rfl⟩ := List.mem_map.mp h
    exact ⟨declared, hdeclared, rfl⟩

/-- A selector of an analysis that has no uses was looked for. -/
theorem mem_selectors_of_unused {found : StyleSelector}
    (h : found ∈ (analyze source path options).selectors) (hunused : found.htmlUsages = []) :
    found.findUsages (documentOf source path options)
      (ClassAttribute.findAll (documentOf source path options).markup.text) = [] := by
  obtain ⟨overrides, statistics, heq⟩ := analyze_eq source path options
  rw [heq] at h
  cases source with
  | nil => cases h
  | cons c source =>
    obtain ⟨declared, -, hfound⟩ := List.mem_map.mp h
    split at hfound
    · rw [← hfound] at hunused ⊢
      exact hunused
    · rename_i hused
      rw [← hfound] at hunused
      exact absurd (List.isEmpty_iff.mpr hunused) hused

end Entries

end Analysis

/-! ## Findings -/

/-- The text of a file outside its script and style elements. -/
def markupOf (source : Text) : Text := (Markup.ofRegions source (Regions.ofText source)).text

namespace Findings

/-- Nothing in a file speaks against its findings. -/
structure Unrefuted (source : Text) (findings : Findings) : Prop where
  /-- A dead variable is read neither in the script that holds it nor in the markup. -/
  scriptVariables : ∀ found ∈ findings.deadVariables,
    (∃ region ∈ (Regions.ofText source).scripts, region.Holds found.nameOffset) ∧
    (∀ region ∈ (Regions.ofText source).scripts, region.Holds found.nameOffset →
      ¬ found.ReadIn source region) ∧ ¬ found.ReadInMarkup (markupOf source)
  /-- A dead function is used on the line that declares it only. -/
  functions : ∀ found ∈ findings.deadFunctions, ∀ before,
    found.UsedBehind source before → before.count '\n' + 1 = found.position.line
  /-- What an unused import binds stands nowhere outside it. -/
  imports : ∀ found ∈ findings.unusedImports, ∀ symbol ∈ found.symbols, ∀ before after,
    TokenIn source before symbol after →
      found.offset ≤ before.length ∧ before.length < found.endOffset
  /-- An unused component with a capital is neither a tag nor a target in the markup. -/
  components : ∀ found ∈ findings.unusedComponents,
    found.componentName.head?.any isAsciiCapital = true →
      ¬ ComponentUsage.TagIn (markupOf source) found.componentName ∧
      ¬ ComponentUsage.TargetIn (markupOf source) found.componentName
  /-- An unused class is no word of a class attribute, no directive sets it, and its name stands in
  quotes inside class attributes only. -/
  classes : ∀ found ∈ findings.unusedSelectors, found.kind = .cssClass → '.' ∉ found.name →
    ¬ StyleSelector.ClassEvidence (markupOf source) found.name

variable {rules : Suppression} {source path : Text}

theorem unread_of_deadVariable {found : Variable}
    (h : found ∈ (ofAnalysis rules (analyze source path)).deadVariables) :
    (∃ region ∈ (Regions.ofText source).scripts, region.Holds found.nameOffset) ∧
    (∀ region ∈ (Regions.ofText source).scripts, region.Holds found.nameOffset →
      ¬ found.ReadIn source region) ∧ ¬ found.ReadInMarkup (markupOf source) := by
  obtain ⟨hmem, hreported⟩ := List.mem_filter.mp h
  obtain ⟨declared, hdeclared, rfl⟩ := Analysis.mem_scriptVariables hmem
  simp only [Suppression.reportsVariable, Bool.and_eq_true, List.isEmpty_iff] at hreported
  obtain ⟨hname, hheld⟩ := Analysis.read_variable hdeclared
  exact ⟨hheld, Variable.not_read_of_findUsages hname hreported.1.1 rfl rfl⟩

theorem line_of_deadFunction {found : Function}
    (h : found ∈ (ofAnalysis rules (analyze source path)).deadFunctions) {before : Text}
    (hused : found.UsedBehind source before) : before.count '\n' + 1 = found.position.line := by
  obtain ⟨hmem, hreported⟩ := List.mem_filter.mp h
  obtain ⟨declared, hdeclared, rfl⟩ := Analysis.mem_functions hmem
  simp only [Suppression.reportsFunction, Bool.and_eq_true, List.isEmpty_iff] at hreported
  exact Function.line_of_findUsages hreported.1.1.1.1 rfl rfl hused

theorem within_of_unusedImport {found : Import}
    (h : found ∈ (ofAnalysis rules (analyze source path)).unusedImports) {symbol before after : Text}
    (hsymbol : symbol ∈ found.symbols) (htoken : TokenIn source before symbol after) :
    found.offset ≤ before.length ∧ before.length < found.endOffset := by
  obtain ⟨hmem, hreported⟩ := List.mem_filter.mp h
  obtain ⟨declared, hdeclared, rfl⟩ := Analysis.mem_imports hmem
  simp only [Suppression.reportsImport, Bool.and_eq_true, List.isEmpty_iff] at hreported
  have hname := Analysis.read_import hdeclared hsymbol
  exact Import.within_of_findUsages hreported.1.2 hsymbol hname htoken

theorem no_evidence_of_unusedComponent {found : ComponentImport}
    (h : found ∈ (ofAnalysis rules (analyze source path)).unusedComponents)
    (hcapital : found.componentName.head?.any isAsciiCapital = true) :
    ¬ (ComponentUsage.TagIn (markupOf source) found.componentName ∨
      ComponentUsage.TargetIn (markupOf source) found.componentName) := by
  obtain ⟨hmem, hreported⟩ := List.mem_filter.mp h
  obtain ⟨declared, hdeclared, rfl⟩ := Analysis.mem_componentImports hmem
  have hname := Analysis.read_component hdeclared
  have hshape : ComponentUsage.Capitalised isIdentChar declared.componentName := by
    obtain ⟨first, more, hcons⟩ := List.exists_cons_of_ne_nil hname.1
    refine ⟨first, more, hcons, ?_, fun x hx => hname.2 x (hcons ▸ List.mem_cons_of_mem first hx)⟩
    simpa [ComponentImport.link, hcons] using hcapital
  intro hevidence
  obtain ⟨usage, husage, hsame⟩ :=
    @ComponentUsage.mem_findAll_of_evidence (Analysis.documentOf source path {}) _ hshape hevidence
  refine ComponentUsage.ne_of_link_unused ?_ husage hsame
  simpa [Suppression.reportsComponent] using hreported

theorem no_evidence_of_unusedClass {found : StyleSelector}
    (h : found ∈ (ofAnalysis rules (analyze source path)).unusedSelectors)
    (hkind : found.kind = .cssClass) (hdot : '.' ∉ found.name) :
    ¬ StyleSelector.ClassEvidence (markupOf source) found.name := by
  obtain ⟨hmem, hreported⟩ := List.mem_filter.mp h
  simp only [Suppression.reportsSelector, Bool.and_eq_true, List.isEmpty_iff] at hreported
  have hnone := Analysis.mem_selectors_of_unused hmem hreported.1
  rw [StyleSelector.findUsages, hkind] at hnone
  exact StyleSelector.no_evidence_of_classUsages hdot hnone

/-- No finding stands against direct evidence in the file, whatever the rules. -/
theorem unrefuted_ofAnalysis (rules : Suppression) (source path : Text) :
    (ofAnalysis rules (analyze source path)).Unrefuted source where
  scriptVariables _ h := unread_of_deadVariable h
  functions _ h _ hused := line_of_deadFunction h hused
  imports _ h _ hsymbol _ _ htoken := within_of_unusedImport h hsymbol htoken
  components _ h hcapital := not_or.mp (no_evidence_of_unusedComponent h hcapital)
  classes _ h hkind hdot := no_evidence_of_unusedClass h hkind hdot

-- there is something to report: a component, a variable and a function that nothing uses
example :
    let findings := ofAnalysis {} (analyze
      "<script>import A from './A.svelte'; let b = 1;\nfunction c() \x7b\x7d</script>" "a.svelte")
    findings.unusedComponents.map (·.componentName) = ["A".toList] ∧
      findings.deadVariables.map (·.name) = ["b".toList] ∧
      findings.deadFunctions.map (·.name) = ["c".toList] := by
  decide +kernel

end Findings

end ComponentAudit
