import ComponentAudit.Proofs.Finding.Evidence
import ComponentAudit.Proofs.Style.Catalog
import Mathlib.Data.List.Induction

/-! # Lists of passes

A pass may run twice and the passes for overrides and uses may run in either order, so a list of
passes leaves behind what the set of its members does. Only the statistics look at the order: they
count what was filled in when they ran last. First each pass is shown to be idempotent and to commute
with the others, then a whole list is brought into the form `settle`, and the fields of the result
are read off that form. -/

namespace ComponentAudit

namespace Analysis

/-! ## One pass after another -/

@[simp] theorem withOverrides_withOverrides (analysis : Analysis) (document : Document) :
    (analysis.withOverrides document).withOverrides document = analysis.withOverrides document := by
  by_cases h : analysis.styles.isEmpty <;> simp [withOverrides, h]

theorem styles_withUsages (analysis : Analysis) (document : Document) :
    (analysis.withUsages document).styles = analysis.styles := by
  unfold withUsages
  split <;> rfl

theorem withOverrides_withUsages (analysis : Analysis) (document : Document) :
    (analysis.withUsages document).withOverrides document =
      (analysis.withOverrides document).withUsages document := by
  by_cases hstyles : analysis.styles.isEmpty
  · simp [withOverrides, styles_withUsages, hstyles]
  · by_cases htext : document.text.isEmpty <;> simp [withOverrides, withUsages, hstyles, htext]

/-- A selector keeps the uses of an earlier run, and one without gets the same answer again. -/
@[simp] theorem withUsages_withUsages (analysis : Analysis) (document : Document) :
    (analysis.withUsages document).withUsages document = analysis.withUsages document := by
  by_cases htext : document.text.isEmpty
  · simp [withUsages, htext]
  · simp only [withUsages, htext, Bool.false_eq_true, if_false, List.map_map]
    congr 1
    refine List.map_congr_left fun selector _ => ?_
    by_cases hused : selector.htmlUsages.isEmpty
    · simp only [Function.comp_apply, hused, if_true]
      split <;> rfl
    · simp only [Function.comp_apply, hused, Bool.false_eq_true, if_false]

theorem withOverrides_statistics (analysis : Analysis) (document : Document) (statistics : Tally) :
    { analysis with statistics }.withOverrides document =
      { analysis.withOverrides document with statistics } := by
  unfold withOverrides
  split <;> rfl

theorem withUsages_statistics (analysis : Analysis) (document : Document) (statistics : Tally) :
    { analysis with statistics }.withUsages document =
      { analysis.withUsages document with statistics } := by
  unfold withUsages
  split <;> rfl

/-! ## The set of passes -/

/-- What the passes for overrides and uses among some passes fill in. -/
def settle (analysis : Analysis) (document : Document) (passes : List Pass) : Analysis :=
  let analysis := if .overrides ∈ passes then analysis.withOverrides document else analysis
  if .usages ∈ passes then analysis.withUsages document else analysis

variable (analysis : Analysis) (document : Document) (passes : List Pass)

theorem settle_append_overrides :
    analysis.settle document (passes ++ [.overrides]) =
      (analysis.settle document passes).withOverrides document := by
  by_cases ho : Pass.overrides ∈ passes <;> by_cases hu : Pass.usages ∈ passes <;>
    simp [settle, ho, hu, withOverrides_withUsages]

theorem settle_append_usages :
    analysis.settle document (passes ++ [.usages]) =
      (analysis.settle document passes).withUsages document := by
  by_cases hu : Pass.usages ∈ passes <;> simp [settle, hu]

theorem settle_append_statistics :
    analysis.settle document (passes ++ [.statistics]) = analysis.settle document passes := by
  simp [settle]

/-- The set of its members decides what a list of passes fills in, the statistics apart. -/
theorem foldl_run_eq_settle :
    passes.foldl (Pass.run document) analysis =
      { analysis.settle document passes with
        statistics := (passes.foldl (Pass.run document) analysis).statistics } := by
  -- from the right: the last pass runs on what the earlier ones settled
  induction passes using List.reverseRecOn with
  | nil => rfl
  | append_singleton passes pass ih =>
    rw [List.foldl_append, List.foldl_cons, List.foldl_nil]
    generalize passes.foldl (Pass.run document) analysis = reached at ih ⊢
    generalize reached.statistics = counted at ih
    subst ih
    cases pass with
    | overrides =>
      simp only [Pass.run, settle_append_overrides, withOverrides_statistics]
    | usages =>
      simp only [Pass.run, settle_append_usages, withUsages_statistics]
    | statistics =>
      simp only [Pass.run, settle_append_statistics, withStatistics]

/-- Counting takes no notice of what was counted before. -/
theorem countStatistics_foldl_run (t : Text) :
    countStatistics t (passes.foldl (Pass.run document) analysis) =
      countStatistics t (analysis.settle document passes) := by
  rw [foldl_run_eq_settle]
  rfl

variable {passes} in
theorem statistics_foldl_run (h : .statistics ∉ passes) :
    (passes.foldl (Pass.run document) analysis).statistics = analysis.statistics := by
  induction passes generalizing analysis with
  | nil => rfl
  | cons pass passes ih =>
    rw [List.mem_cons, not_or] at h
    rw [List.foldl_cons, ih _ h.2]
    cases pass with
    | overrides =>
      obtain ⟨overrides, heq⟩ := withOverrides_eq analysis document
      rw [Pass.run, heq]
    | usages =>
      rw [Pass.run, withUsages]
      split <;> rfl
    | statistics => exact absurd rfl h.1

variable {passes} in
theorem settle_congr {others : List Pass} (hoverrides : .overrides ∈ passes ↔ .overrides ∈ others)
    (husages : .usages ∈ passes ↔ .usages ∈ others) :
    analysis.settle document passes = analysis.settle document others := by
  simp only [settle, hoverrides, husages]

theorem overrides_settle :
    (analysis.settle document passes).overrides =
      if .overrides ∈ passes then (analysis.withOverrides document).overrides
      else analysis.overrides := by
  have hkeep : ∀ analysis : Analysis,
      (analysis.withUsages document).overrides = analysis.overrides := by
    intro analysis
    unfold withUsages
    split <;> rfl
  by_cases hoverrides : .overrides ∈ passes <;> by_cases husages : .usages ∈ passes <;>
    simp [settle, hoverrides, husages, hkeep]

/-- The overrides stand beside everything else: nothing but they depends on their pass. -/
theorem settle_eq :
    analysis.settle document passes =
      { (if .usages ∈ passes then analysis.withUsages document else analysis) with
        overrides := (analysis.settle document passes).overrides } := by
  obtain ⟨overrides, heq⟩ := withOverrides_eq analysis document
  have hkeep : { analysis with overrides }.withUsages document =
      { analysis.withUsages document with overrides } := by
    unfold withUsages
    split <;> rfl
  by_cases hoverrides : .overrides ∈ passes <;> by_cases husages : .usages ∈ passes <;>
    simp [settle, hoverrides, husages, heq, hkeep]

end Analysis

open Analysis

variable (passes : List Pass) (source path : Text) (options : Options)

/-- A reading of a file to which nothing was added. The only uses are the marks of selectors that
count as used. -/
structure Analysis.Unsearched (analysis : Analysis) : Prop where
  scriptVariables : ∀ found ∈ analysis.scriptVariables, found.usages = []
  functions : ∀ found ∈ analysis.functions, found.usages = []
  imports : ∀ found ∈ analysis.imports, found.usages = []
  componentImports : ∀ found ∈ analysis.componentImports, found.usages = []
  componentUsages : analysis.componentUsages = []
  selectors : ∀ entry ∈ analysis.selectors, ∃ autoUse : Option AutoUse,
    entry.htmlUsages = (autoUse.map (·.mark entry.position)).toList
  overrides : analysis.overrides = []
  statistics : analysis.statistics = []

theorem unsearched_declaredIn : (declaredIn source path options).Unsearched where
  scriptVariables found h := by
    obtain ⟨declared, hdeclared, hfound⟩ := List.mem_flatMap.mp h
    obtain ⟨region, -, rfl⟩ := List.mem_map.mp hdeclared
    obtain ⟨inScript, -, rfl⟩ := List.mem_map.mp hfound
    rfl
  functions found h := by
    obtain ⟨declared, hdeclared, hfound⟩ := List.mem_flatMap.mp h
    obtain ⟨region, -, rfl⟩ := List.mem_map.mp hdeclared
    obtain ⟨inScript, -, rfl⟩ := List.mem_map.mp hfound
    rfl
  imports found h := by
    obtain ⟨declared, hdeclared, hfound⟩ := List.mem_flatMap.mp h
    obtain ⟨region, -, rfl⟩ := List.mem_map.mp hdeclared
    obtain ⟨inScript, -, rfl⟩ := List.mem_map.mp hfound
    rfl
  componentImports found h := by
    obtain ⟨statement, -, hfound⟩ := List.mem_filterMap.mp h
    unfold ComponentImport.ofImport? at hfound
    split at hfound
    · cases hfound
    · split at hfound
      · obtain rfl := Option.some.inj hfound
        rfl
      · cases hfound
  componentUsages := rfl
  selectors entry h := by
    obtain ⟨⟨region, sheet⟩, -, hentry⟩ := List.mem_flatMap.mp h
    obtain ⟨rule, -, part, relative, -, hdeclared⟩ := StyleSelector.ofSheet_declaredBy hentry
    exact hdeclared.marked
  overrides := rfl
  statistics := rfl

/-- What a list of passes leaves behind. -/
structure Analysis.FilledBy (result : Analysis) : Prop where
  /-- The overrides are those of a full analysis, or none. -/
  overrides : result.overrides =
    if .overrides ∈ passes then (analyze source path options).overrides else []
  /-- All else but the statistics is as in a full analysis, or as it was read. -/
  uses : result =
    { (if .usages ∈ passes then analyze source path options else declaredIn source path options) with
      overrides := result.overrides, statistics := result.statistics }
  uncounted : .statistics ∉ passes → result.statistics = []
  /-- The statistics count what the set of passes in front of them, the last time they ran, filled
  in. -/
  counted : ∀ before after, passes = before ++ .statistics :: after → .statistics ∉ after →
    result.statistics = countStatistics source
      (analyzeWith (Pass.all.filter fun pass => pass ≠ .statistics ∧ pass ∈ before)
        source path options)
  full : .overrides ∈ passes → .usages ∈ passes → passes.getLast? = some .statistics →
    result = analyze source path options

theorem analyzeWith_eq_foldl :
    analyzeWith passes source path options =
      passes.foldl (Pass.run (documentOf source path options)) (declaredIn source path options) :=
  rfl

theorem analyzeWith_eq_settle :
    analyzeWith passes source path options =
      { (declaredIn source path options).settle (documentOf source path options) passes with
        statistics := (analyzeWith passes source path options).statistics } :=
  foldl_run_eq_settle _ _ passes

theorem statistics_analyzeWith_split {before after : List Pass} (h : .statistics ∉ after) :
    (analyzeWith (before ++ .statistics :: after) source path options).statistics =
      countStatistics source
        ((declaredIn source path options).settle (documentOf source path options) before) := by
  rw [analyzeWith_eq_foldl, List.foldl_append, List.foldl_cons, statistics_foldl_run _ _ h]
  exact countStatistics_foldl_run _ _ before source

theorem analyze_eq_settle :
    analyze source path options =
      { (declaredIn source path options).settle (documentOf source path options) Pass.all with
        statistics := countStatistics source
          ((declaredIn source path options).settle (documentOf source path options) Pass.all) } :=
  rfl

/-- Whatever the order and the number of its passes, a list of passes is told by its members, and by
those in front of the last count. -/
theorem analyzeWith_filledBy :
    (analyzeWith passes source path options).FilledBy passes source path options ∧
      (declaredIn source path options).Unsearched := by
  refine ⟨?_, unsearched_declaredIn source path options⟩
  have hform := analyzeWith_eq_settle passes source path options
  refine ⟨?_, ?_, ?_, ?_, ?_⟩
  · rw [hform, analyze_eq_settle]
    simp only [overrides_settle]
    rfl
  · rw [hform, settle_eq]
    by_cases husages : .usages ∈ passes
    · rw [if_pos husages, if_pos husages, analyze_eq_settle, settle_eq _ _ Pass.all]
      rfl
    · rw [if_neg husages, if_neg husages]
  · intro hnone
    exact statistics_foldl_run _ _ hnone
  · intro before after hsplit hafter
    rw [hsplit, statistics_analyzeWith_split source path options hafter, analyzeWith_eq_foldl,
      countStatistics_foldl_run]
    refine congrArg _ (settle_congr _ _ ?_ ?_) <;> simp [Pass.all]
  · intro hoverrides husages hlast
    obtain ⟨before, hbefore⟩ := List.getLast?_eq_some_iff.mp hlast
    have hsettled : (declaredIn source path options).settle (documentOf source path options) passes =
        (declaredIn source path options).settle (documentOf source path options) Pass.all := by
      refine settle_congr _ _ ?_ ?_ <;> simp [Pass.all, hoverrides, husages]
    have hcounted : (analyzeWith passes source path options).statistics =
        countStatistics source
          ((declaredIn source path options).settle (documentOf source path options) passes) := by
      rw [hbefore, statistics_analyzeWith_split source path options List.not_mem_nil,
        settle_append_statistics]
    rw [hform, hcounted, hsettled, analyze_eq_settle]

end ComponentAudit
