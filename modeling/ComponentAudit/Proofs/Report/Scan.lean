import ComponentAudit.Proofs.Report.Csv
import ComponentAudit.Report.ScanReport

/-! # One selection in every format

The formats tell files to show from the others by different tests: a count of findings, an empty set of
findings, a blank text. All of them agree with one test, so the files shown do not depend on the
format. -/

namespace ComponentAudit

/-! ## Nothing shown is blank -/

theorem Text.isBlank_append (s t : Text) : isBlank (s ++ t) = (isBlank s && isBlank t) :=
  List.all_append

/-- Lines below a title, whatever they say and whatever the title is about. -/
theorem isBlank_unlines_titled {lead : Text} (topic : Text) (lines : List Text)
    (h : Text.isBlank lead = false) : Text.isBlank (unlines ((lead ++ topic) :: lines)) = false := by
  cases lines with
  | nil => simp only [unlines, Text.join_singleton, Text.isBlank_append, h, Bool.false_and]
  | cons next lines =>
    simp only [unlines, Text.join_cons_cons, Text.isBlank_append, h, Bool.false_and]

theorem Text.isEmpty_of_not_isBlank {t : Text} (h : isBlank t = false) : t.isEmpty = false := by
  cases t with
  | nil => cases h
  | cons c t => rfl

theorem Analysis.isBlank_describe (analysis : Analysis) : Text.isBlank analysis.describe = false :=
  isBlank_unlines_titled _ _ rfl

namespace Findings

variable {findings : Findings}

theorem isBlank_describeStyles (h : findings.hasStyleIssues = true) :
    Text.isBlank findings.describeStyles = false := by
  rw [describeStyles, h]
  exact isBlank_unlines_titled _ _ rfl

theorem isBlank_describeDeadCode (h : findings.hasDeadCode = true) :
    Text.isBlank findings.describeDeadCode = false := by
  rw [describeDeadCode, h]
  exact isBlank_unlines_titled _ _ rfl

theorem isBlank_describeComponents (h : findings.hasUnusedComponents = true) :
    Text.isBlank findings.describeComponents = false := by
  rw [describeComponents, h]
  exact isBlank_unlines_titled _ _ rfl

/-- A title stands above the sections as soon as one of them has something to say. -/
theorem isBlank_describeAll (h : findings.isEmpty = false) :
    Text.isBlank findings.describeAll = false := by
  have hsection : ∃ part ∈ [findings.describeStyles, findings.describeDeadCode,
      findings.describeComponents], part.isEmpty = false := by
    simp only [isEmpty, Bool.not_eq_false', Bool.or_eq_true] at h
    rcases h with (h | h) | h
    · exact ⟨_, by simp, Text.isEmpty_of_not_isBlank (isBlank_describeStyles h)⟩
    · exact ⟨_, by simp, Text.isEmpty_of_not_isBlank (isBlank_describeDeadCode h)⟩
    · exact ⟨_, by simp, Text.isEmpty_of_not_isBlank (isBlank_describeComponents h)⟩
  simp only [describeAll]
  split
  · rename_i hnone
    obtain ⟨part, hpart, hshown⟩ := hsection
    rw [List.isEmpty_iff, List.filter_eq_nil_iff] at hnone
    exact absurd (by simp [hshown]) (hnone part hpart)
  · simp only [Text.isBlank_append]
    rfl

/-! ## A mode restricts once -/

theorem restrict_restrict (findings : Findings) (mode : FilterMode) :
    (findings.restrict mode).restrict mode = findings.restrict mode := by
  cases mode <;> rfl

/-- A mode other than `all` leaves findings of one class only. -/
theorem isBlank_describe_restrict {mode : FilterMode} (h : (findings.restrict mode).isEmpty = false) :
    Text.isBlank ((findings.restrict mode).describe mode) = false := by
  cases mode with
  | css =>
    have hscripts : (findings.restrict .css).hasDeadCode = false := rfl
    have hcomponents : (findings.restrict .css).hasUnusedComponents = false := rfl
    exact isBlank_describeStyles (by simpa [isEmpty, hscripts, hcomponents] using h)
  | deadCode =>
    have hstyles : (findings.restrict .deadCode).hasStyleIssues = false := rfl
    have hcomponents : (findings.restrict .deadCode).hasUnusedComponents = false := rfl
    exact isBlank_describeDeadCode (by simpa [isEmpty, hstyles, hcomponents] using h)
  | components =>
    have hstyles : (findings.restrict .components).hasStyleIssues = false := rfl
    have hscripts : (findings.restrict .components).hasDeadCode = false := rfl
    exact isBlank_describeComponents (by simpa [isEmpty, hstyles, hscripts] using h)
  | all => exact isBlank_describeAll h

theorem render_text_restrict {mode : FilterMode} (h : (findings.restrict mode).isEmpty = false) :
    (findings.restrict mode).render mode .text = (findings.restrict mode).describe mode := by
  simp [render, restrict_restrict, h]

/-! ## Every file shown has records -/

theorem csvRecords_ne_nil (h : findings.isEmpty = false) : findings.csvRecords ≠ [] := by
  intro hnone
  simp only [csvRecords, List.append_eq_nil_iff, List.map_eq_nil_iff, ite_eq_right_iff] at hnone
  obtain ⟨⟨⟨⟨⟨⟨hselectors, hoverrides⟩, hstyles⟩, hfunctions⟩, hvariables⟩, himports⟩, hcomponents⟩ :=
    hnone
  have hnoStyles : findings.noStyles = false := by simpa using hstyles
  simp [isEmpty, hasStyleIssues, hasDeadCode, hasUnusedComponents, hselectors, hoverrides, hnoStyles,
    hfunctions, hvariables, himports, hcomponents] at h

end Findings

/-- What there is to fix in a file is one of the things declared or overridden in it. -/
theorem Analysis.csvRecords_ne_nil {rules : Suppression} {analysis : Analysis}
    (h : 0 < (Findings.ofAnalysis rules analysis).opportunityCount) : analysis.csvRecords ≠ [] := by
  intro hnone
  simp only [csvRecords, List.append_eq_nil_iff, List.map_eq_nil_iff] at hnone
  obtain ⟨⟨⟨⟨⟨hvariables, hfunctions⟩, himports⟩, hcomponents⟩, hselectors⟩, hoverrides⟩ := hnone
  simp [Findings.opportunityCount, Findings.ofAnalysis, hvariables, hfunctions, himports, hcomponents,
    hselectors, hoverrides] at h

/-! ## What is shown of each file -/

/-- What a report on several files has on one of them, in each format. -/
structure ScanEntry where
  json : Json
  records : List (List Text)
  text : Text

/-- What a report has on a file: without a mode its analysis, else the findings of the mode. -/
def scanEntry (rules : Suppression) (mode : Option FilterMode) (analysis : Analysis) : ScanEntry :=
  match mode with
  | none => ⟨analysis.toJson, analysis.csvRecords, analysis.describe⟩
  | some mode =>
    let findings := (Findings.ofAnalysis rules analysis).restrict mode
    ⟨findings.toJson, findings.csvRecords, findings.describe mode⟩

/-- The names of the fields of a report's records. -/
def scanHeader : Option FilterMode → List Text
  | none => Analysis.csvHeader
  | some _ => Findings.csvHeader

/-- Whether a report on several files shows a file. -/
def showsFile (rules : Suppression) (mode : Option FilterMode) (analysis : Analysis) : Bool :=
  match mode with
  | none => 0 < (Findings.ofAnalysis rules analysis).opportunityCount
  | some mode => !((Findings.ofAnalysis rules analysis).restrict mode).isEmpty

/-- An entry that shows a file in every format: a value that names it, at least one record, each of
which starts with its path, and a text that is not blank. -/
structure ScanEntry.Shows (entry : ScanEntry) (filePath : Text) : Prop where
  named : entry.json.member? "file_path" = some (.str filePath)
  recorded : entry.records ≠ []
  grouped : ∀ record ∈ entry.records, record.head? = some filePath
  visible : Text.isBlank entry.text = false

theorem scanEntry_shows {rules : Suppression} {mode : Option FilterMode} {analysis : Analysis}
    (h : showsFile rules mode analysis = true) :
    (scanEntry rules mode analysis).Shows analysis.filePath := by
  cases mode with
  | none =>
    exact {
      named := rfl
      recorded := Analysis.csvRecords_ne_nil (of_decide_eq_true h)
      grouped := fun record hrecord => (Analysis.of_mem_csvRecords hrecord).1
      visible := analysis.isBlank_describe }
  | some mode =>
    have hshown : ((Findings.ofAnalysis rules analysis).restrict mode).isEmpty = false := by
      simpa [showsFile] using h
    exact {
      named := rfl
      recorded := Findings.csvRecords_ne_nil hshown
      grouped := fun record hrecord => (Findings.of_mem_csvRecords hrecord).1
      visible := Findings.isBlank_describe_restrict hshown }

theorem restrictedFindings_eq (rules : Suppression) (mode : FilterMode) (analyses : List Analysis) :
    restrictedFindings rules mode analyses =
      (analyses.filter (showsFile rules (some mode))).map fun analysis =>
        (Findings.ofAnalysis rules analysis).restrict mode := List.filter_map

/-- The blank texts that a report leaves out are none. -/
theorem renderFindings_text (rules : Suppression) (mode : FilterMode) (analyses : List Analysis) :
    renderFindings rules .text mode analyses =
      Text.join fileSeparator ((restrictedFindings rules mode analyses).map (·.describe mode)) := by
  have hshown : ∀ findings ∈ restrictedFindings rules mode analyses,
      findings.render mode .text = findings.describe mode ∧
        Text.isBlank (findings.describe mode) = false := by
    intro findings hmem
    obtain ⟨hmem, hfound⟩ := List.mem_filter.mp hmem
    obtain ⟨analysis, -, rfl⟩ := List.mem_map.mp hmem
    have hempty : ((Findings.ofAnalysis rules analysis).restrict mode).isEmpty = false := by
      simpa using hfound
    exact ⟨Findings.render_text_restrict hempty, Findings.isBlank_describe_restrict hempty⟩
  have hrender : (restrictedFindings rules mode analyses).map (·.render mode .text) =
      (restrictedFindings rules mode analyses).map (·.describe mode) :=
    List.map_congr_left fun findings hmem => (hshown findings hmem).1
  have hvisible : ∀ part ∈ (restrictedFindings rules mode analyses).map (·.describe mode),
      !Text.isBlank part := by
    intro part hpart
    obtain ⟨findings, hmem, rfl⟩ := List.mem_map.mp hpart
    simp [(hshown findings hmem).2]
  rw [renderFindings, hrender, List.filter_eq_self.mpr hvisible]

/-- A report on several files shows one selection of them in every format, those with something to
report: as JSON an array with an element for each, as records a group for each below the header, as
text a part for each with a separator between neighbours. -/
theorem renderScan_shows_one_selection (rules : Suppression) (mode : Option FilterMode)
    (analyses : List Analysis) :
    ∃ shown : List Analysis, shown.Sublist analyses ∧
      (∀ analysis, analysis ∈ shown ↔ analysis ∈ analyses ∧ showsFile rules mode analysis = true) ∧
      (∀ analysis ∈ shown, (scanEntry rules mode analysis).Shows analysis.filePath) ∧
      Json.ofText? (renderScan rules .json mode analyses) =
        some (.arr (shown.map fun analysis => (scanEntry rules mode analysis).json)) ∧
      Csv.Conveys (renderScan rules .csv mode analyses) (scanHeader mode)
        (shown.flatMap fun analysis => (scanEntry rules mode analysis).records) ∧
      renderScan rules .text mode analyses =
        Text.join fileSeparator (shown.map fun analysis => (scanEntry rules mode analysis).text) := by
  refine ⟨analyses.filter (showsFile rules mode), List.filter_sublist, fun analysis => List.mem_filter,
    fun analysis hmem => scanEntry_shows (List.mem_filter.mp hmem).2, ?_⟩
  cases mode with
  | none => exact ⟨Json.ofText?_toText _, Analysis.conveys_csvRecords _, rfl⟩
  | some mode =>
    have hrecords : (restrictedFindings rules mode analyses).flatMap Findings.csvRecords =
        (analyses.filter (showsFile rules (some mode))).flatMap fun analysis =>
          (scanEntry rules (some mode) analysis).records := by
      rw [restrictedFindings_eq, List.flatMap_map]
      rfl
    refine ⟨?_, ?_, ?_⟩
    · simp only [renderScan, renderFindings, Json.ofText?_toText, restrictedFindings_eq, List.map_map]
      rfl
    · rw [← hrecords]
      exact Findings.conveys_csvRecords _
    · rw [renderScan, renderFindings_text, restrictedFindings_eq, List.map_map]
      rfl

end ComponentAudit
