import ComponentAudit.Proofs.Component.Pass
import ComponentAudit.Proofs.Usage.Order
import Mathlib.Data.List.Forall2

/-! # What the settings of an analysis can change

Two analyses of one file under different settings are compared entry by entry. The searches read the
settings in two places only: the ids of the page decide whether an id of a style element for the page
was found, and whether the markup is scanned decides where a variable is looked for. Neither place is
in front of a finding that is not about variables: what is meant for the page is never reported. -/

namespace ComponentAudit

/-- Two entries that are one, but for the uses of an id in a style element for the page. -/
def StyleSelector.SameButPageId (first second : StyleSelector) : Prop :=
  first = second ∨ first.kind = .id ∧ first.isGlobal = true ∧
    second = { first with htmlUsages := second.htmlUsages }

/-- Two tallies with the same names, and the same values but for some names. -/
def Tally.SameBut (names : List Text) (first second : Tally) : Prop :=
  List.Forall₂ (fun a b => a.1 = b.1 ∧ (a.1 ∈ names ∨ a.2 = b.2)) first second

/-- Two analyses that differ in the uses of ids for the page, and in the counters of selectors with
and without uses. -/
structure Analysis.SameButPageIds (first second : Analysis) : Prop where
  rest : second = { first with selectors := second.selectors, statistics := second.statistics }
  selectors : List.Forall₂ StyleSelector.SameButPageId first.selectors second.selectors
  statistics : first.statistics.SameBut ["used_css_selectors", "unused_css_selectors"]
    second.statistics

/-- An entry for a variable, and one that has at least its uses. -/
def Variable.ReadMore (first second : Variable) : Prop :=
  second = { first with usages := second.usages } ∧ first.usages.Sublist second.usages

/-- Two analyses that differ in the uses of variables, of which the second has more. -/
structure Analysis.ReadMore (first second : Analysis) : Prop where
  rest : second = { first with scriptVariables := second.scriptVariables }
  scriptVariables : List.Forall₂ Variable.ReadMore first.scriptVariables second.scriptVariables

/-- Findings that lack some of the variables of others. -/
structure Findings.FewerVariables (first second : Findings) : Prop where
  rest : second = { first with deadVariables := second.deadVariables }
  deadVariables : second.deadVariables.Sublist first.deadVariables

/-! ## One search under two settings -/

section Searches

variable (document : Document) (options other : Options)

theorem Variable.findUsages_setOptions (h : options.scanMarkup = other.scanMarkup) (found : Variable)
    (scripts : List ScriptRegion) :
    found.findUsages { document with options := other } scripts =
      found.findUsages { document with options := options } scripts := by
  simp only [Variable.findUsages, h]
  rfl

theorem Variable.findUsages_sublist (found : Variable) (scripts : List ScriptRegion) :
    (found.findUsages
        { document with options := { options with scanMarkup := false } } scripts).Sublist
      (found.findUsages
        { document with options := { options with scanMarkup := true } } scripts) := by
  refine List.Sublist.map _ (sortOffsets_sublist ?_)
  intro offset hoffset
  rw [if_neg Bool.false_ne_true, List.append_nil] at hoffset
  exact List.mem_append_left _ hoffset

/-- The ids of the page are asked for where an id stands in a style element for the page. -/
theorem StyleSelector.findUsages_setOptions (selector : StyleSelector)
    (attributes : List ClassAttribute)
    (h : ¬ (selector.kind = .id ∧ selector.isGlobal = true)) :
    selector.findUsages { document with options := other } attributes =
      selector.findUsages { document with options := options } attributes := by
  unfold StyleSelector.findUsages
  split
  case h_2 hkind =>
    have hlocal : selector.isGlobal = false := by
      rw [← Bool.not_eq_true]
      intro hglobal
      exact h ⟨hkind, hglobal⟩
    simp only [StyleSelector.idUsages, hlocal, Bool.false_and]
    rfl
  all_goals rfl

end Searches

/-! ## The pass for uses -/

namespace Analysis

variable (analysis : Analysis) (document : Document) (options other : Options)

theorem withUsages_setOptions (h : options.scanMarkup = other.scanMarkup) :
    analysis.withUsages { document with options := other } =
      { analysis.withUsages { document with options := options } with
        selectors := (analysis.withUsages { document with options := other }).selectors } := by
  by_cases hempty : document.text.isEmpty = true
  · simp only [withUsages, hempty, if_true]
  · simp only [withUsages, hempty, Bool.false_eq_true, if_false,
      Variable.findUsages_setOptions document options other h]
    rfl

theorem forall₂_selectors_withUsages :
    List.Forall₂ StyleSelector.SameButPageId
      (analysis.withUsages { document with options := options }).selectors
      (analysis.withUsages { document with options := other }).selectors := by
  by_cases hempty : document.text.isEmpty = true
  · simp only [withUsages, hempty, if_true]
    exact List.forall₂_same.mpr fun selector _ => .inl rfl
  · simp only [withUsages, hempty, Bool.false_eq_true, if_false]
    rw [List.forall₂_map_left_iff, List.forall₂_map_right_iff, List.forall₂_same]
    intro selector _
    by_cases hmarked : selector.htmlUsages.isEmpty = true
    · simp only [hmarked, if_true]
      by_cases hpage : selector.kind = .id ∧ selector.isGlobal = true
      · exact .inr ⟨hpage.1, hpage.2, rfl⟩
      · left
        rw [StyleSelector.findUsages_setOptions document options other selector _ hpage]
    · simp only [hmarked, Bool.false_eq_true, if_false]
      exact .inl rfl

theorem withUsages_scanMarkup :
    analysis.withUsages { document with options := { options with scanMarkup := true } } =
      { analysis.withUsages { document with options := { options with scanMarkup := false } } with
        scriptVariables := (analysis.withUsages
          { document with options := { options with scanMarkup := true } }).scriptVariables } := by
  by_cases hempty : document.text.isEmpty = true
  · simp only [withUsages, hempty, if_true]
  · simp only [withUsages, hempty, Bool.false_eq_true, if_false]
    rfl

theorem forall₂_scriptVariables_withUsages :
    List.Forall₂ Variable.ReadMore
      (analysis.withUsages
        { document with options := { options with scanMarkup := false } }).scriptVariables
      (analysis.withUsages
        { document with options := { options with scanMarkup := true } }).scriptVariables := by
  by_cases hempty : document.text.isEmpty = true
  · simp only [withUsages, hempty, if_true]
    exact List.forall₂_same.mpr fun found _ => ⟨rfl, .refl _⟩
  · simp only [withUsages, hempty, Bool.false_eq_true, if_false]
    rw [List.forall₂_map_left_iff, List.forall₂_map_right_iff, List.forall₂_same]
    intro found _
    exact ⟨rfl, Variable.findUsages_sublist document options found _⟩

/-! ## Counting -/

theorem countStatistics_sameBut (t : Text) {first second : Analysis}
    (hrest : second = { first with selectors := second.selectors })
    (hselectors : first.selectors.length = second.selectors.length) :
    (countStatistics t first).SameBut ["used_css_selectors", "unused_css_selectors"]
      (countStatistics t second) := by
  rw [hrest]
  simp [countStatistics, Tally.SameBut, hselectors]

theorem countStatistics_scriptVariables (t : Text) {first second : Analysis}
    (hrest : second = { first with scriptVariables := second.scriptVariables })
    (hvariables : first.scriptVariables.length = second.scriptVariables.length) :
    countStatistics t second = countStatistics t first := by
  rw [hrest]
  simp only [countStatistics, hvariables]

/-! ## Findings -/

theorem filter_reportsSelector {first second : List StyleSelector}
    (h : List.Forall₂ StyleSelector.SameButPageId first second) :
    first.filter Suppression.reportsSelector = second.filter Suppression.reportsSelector := by
  induction h with
  | nil => rfl
  | @cons a b first second hentry _ ih =>
    obtain rfl | ⟨-, hglobal, hsame⟩ := hentry
    · rw [List.filter_cons, List.filter_cons, ih]
    · -- an entry for the page is reported in neither
      have hsilent : ¬ Suppression.reportsSelector a = true := by
        simp [Suppression.reportsSelector, hglobal]
      have hsilent' : ¬ Suppression.reportsSelector b = true := by
        have hglobal' : b.isGlobal = true := by
          rw [hsame]
          exact hglobal
        simp [Suppression.reportsSelector, hglobal']
      rw [List.filter_cons_of_neg hsilent, List.filter_cons_of_neg hsilent', ih]

theorem filter_reportsVariable_sublist {first second : List Variable}
    (h : List.Forall₂ Variable.ReadMore first second) :
    (second.filter Suppression.reportsVariable).Sublist
      (first.filter Suppression.reportsVariable) := by
  induction h with
  | nil => exact .slnil
  | @cons a b first second hentry _ ih =>
    obtain ⟨hsame, hmore⟩ := hentry
    by_cases hreported : Suppression.reportsVariable b = true
    · -- without uses even after the longer search, so the two entries are one
      have hunread : b.usages = [] := by
        simp only [Suppression.reportsVariable, Bool.and_eq_true, List.isEmpty_iff] at hreported
        exact hreported.1.1
      have hunread' : a.usages = [] := List.sublist_nil.mp (hunread ▸ hmore)
      have heq : b = a := by
        rw [hsame, hunread, ← hunread']
      rw [heq] at hreported ⊢
      rw [List.filter_cons_of_pos hreported, List.filter_cons_of_pos hreported]
      exact ih.cons_cons a
    · rw [List.filter_cons_of_neg hreported]
      exact ih.trans (List.Sublist.filter _ (List.sublist_cons_self a first))

theorem SameButPageIds.findings_eq {first second : Analysis} (h : first.SameButPageIds second)
    (rules : Suppression) : Findings.ofAnalysis rules first = Findings.ofAnalysis rules second := by
  rw [h.rest]
  simp only [Findings.ofAnalysis, filter_reportsSelector h.selectors]

theorem ReadMore.fewerVariables {first second : Analysis} (h : first.ReadMore second)
    (rules : Suppression) :
    (Findings.ofAnalysis rules first).FewerVariables (Findings.ofAnalysis rules second) := by
  refine ⟨?_, filter_reportsVariable_sublist h.scriptVariables⟩
  rw [h.rest]
  rfl

/-! ## Whole analyses -/

/-- The uses and the statistics are filled in last, and only they read the settings. -/
theorem analyze_eq_withUsages (source path : Text) (options : Options) :
    analyze source path options =
      { withUsages ((declaredIn source path {}).withOverrides (documentOf source path {}))
          { documentOf source path {} with options := options } with
        statistics := countStatistics source
          (withUsages ((declaredIn source path {}).withOverrides (documentOf source path {}))
            { documentOf source path {} with options := options }) } :=
  rfl

theorem sameButPageIds_analyze (source path : Text) {options other : Options}
    (h : options.scanMarkup = other.scanMarkup) :
    (analyze source path options).SameButPageIds (analyze source path other) := by
  rw [analyze_eq_withUsages source path options, analyze_eq_withUsages source path other]
  generalize withOverrides _ _ = opened
  generalize documentOf source path {} = document
  have hrest := withUsages_setOptions opened document options other h
  have hselectors := forall₂_selectors_withUsages opened document options other
  refine ⟨?_, hselectors, countStatistics_sameBut source hrest hselectors.length_eq⟩
  rw [hrest]

theorem readMore_analyze (source path : Text) (options : Options) :
    (analyze source path { options with scanMarkup := false }).ReadMore
      (analyze source path { options with scanMarkup := true }) := by
  rw [analyze_eq_withUsages, analyze_eq_withUsages source path { options with scanMarkup := true }]
  generalize withOverrides _ _ = opened
  generalize documentOf source path {} = document
  have hrest := withUsages_scanMarkup opened document options
  have hvariables := forall₂_scriptVariables_withUsages opened document options
  refine ⟨?_, hvariables⟩
  rw [countStatistics_scriptVariables source hrest hvariables.length_eq, hrest]

end Analysis

/-- Settings that scan the markup alike give the same findings, and analyses that differ in the uses
of ids for the page. Scanning the markup too gives variables more uses, and changes nothing else. -/
theorem analyze_setOptions (source path : Text) :
    (∀ options other : Options, options.scanMarkup = other.scanMarkup →
      (analyze source path options).SameButPageIds (analyze source path other) ∧
      ∀ rules, Findings.ofAnalysis rules (analyze source path options) =
        Findings.ofAnalysis rules (analyze source path other)) ∧
    ∀ options : Options,
      (analyze source path { options with scanMarkup := false }).ReadMore
        (analyze source path { options with scanMarkup := true }) ∧
      ∀ rules,
        (Findings.ofAnalysis rules
          (analyze source path { options with scanMarkup := false })).FewerVariables
        (Findings.ofAnalysis rules (analyze source path { options with scanMarkup := true })) := by
  constructor
  · intro options other h
    have hsame := Analysis.sameButPageIds_analyze source path h
    exact ⟨hsame, hsame.findings_eq⟩
  · intro options
    have hmore := Analysis.readMore_analyze source path options
    exact ⟨hmore, hmore.fewerVariables⟩

/-- A rule for an id of the page. -/
def pageRule : Text := "<style global>#app\x7b\x7d</style>"

/-- A variable that only the markup reads. -/
def shownVariable : Text := "<script>let a</script>\x7ba\x7d"

theorem analyze_setOptions_pageRule :
    ((analyze pageRule "" { globalIds := [] }).SameButPageIds (analyze pageRule "") ∧
      (analyze pageRule "" { globalIds := [] }).selectors.map (·.htmlUsages.length) = [0] ∧
      (analyze pageRule "").selectors.map (·.htmlUsages.length) = [1]) ∧
    ((analyze shownVariable "" { scanMarkup := false }).ReadMore (analyze shownVariable "") ∧
      (analyze shownVariable "" { scanMarkup := false }).scriptVariables.map
        (·.usages.length) = [0] ∧
      (analyze shownVariable "").scriptVariables.map (·.usages.length) = [1]) := by
  refine ⟨⟨?_, by decide +kernel, by decide +kernel⟩, ?_, by decide +kernel, by decide +kernel⟩
  · exact ((analyze_setOptions pageRule "").1 { globalIds := [] } {} rfl).1
  · exact ((analyze_setOptions shownVariable "").2 {}).1

end ComponentAudit
