import ComponentAudit.Proofs.Component.Owner
import ComponentAudit.Proofs.Shift.Selector

/-! # An analysis below a line feed

Reading a file with a line feed in front gives the old declarations further down, and every pass keeps
it so (`run_lineFeed`). A pass may rely on what reading makes sure of and all passes keep
(`Analysis.Grounded`): names are made of identifier characters, and an empty file declares nothing. -/

namespace ComponentAudit

/-! ## Style elements -/

section Styles

variable {above below : LineIndex}
  (hposition : ∀ offset, below.position (offset + 1) = (above.position offset).shift 1)
include hposition

theorem Analysis.placeRegion_shift (region : StyleRegion) :
    placeRegion below (region.shift 1) = (placeRegion above region).shift 1 := by
  simp [placeRegion, StyleRegion.shift, ElementSpan.shift, hposition]

theorem StyleImport.ofSheet_shift (region : StyleRegion) (sheet : Sheet) :
    ofSheet below (region.shift 1) sheet = (ofSheet above region sheet).map (·.shift 1) := by
  rw [ofSheet, ofSheet, List.map_filterMap]
  congr 1
  funext statement
  have hplace : (region.shift 1).span.bodyStart + statement.offset =
      region.span.bodyStart + statement.offset + 1 := by
    simp only [StyleRegion.shift, ElementSpan.shift]
    omega
  rw [hplace, hposition]
  split
  · cases ofPrelude? statement.prelude <;> rfl
  · rfl

theorem StyleSelector.ofPart?_shift (region : StyleRegion) (sheet : Sheet) (rule : Rule)
    (part : Text) (relative : Nat) :
    ofPart? below (region.shift 1) sheet rule part relative =
      (ofPart? above region sheet rule part relative).map (·.shift 1) := by
  have hplace : (region.shift 1).span.bodyStart + rule.offset + relative =
      region.span.bodyStart + rule.offset + relative + 1 := by
    simp only [StyleRegion.shift, ElementSpan.shift]
    omega
  have hlabel : (region.shift 1).label = region.label := rfl
  simp only [ofPart?, hplace, hposition, hlabel]
  split
  · rfl
  · split
    · rfl
    · simp only [Option.map_some, shift, Option.toList_map, List.map_map]
      rfl

end Styles

theorem StyleSelector.merge_shift (found : List StyleSelector) (selector : StyleSelector) :
    merge (found.map (·.shift 1)) (selector.shift 1) = (merge found selector).map (·.shift 1) := by
  simp only [merge, List.any_map, Function.comp_def, List.map_map,
    show ∀ s : StyleSelector, (s.shift 1).selectorText = s.selectorText from fun _ => rfl]
  split
  · rw [List.map_map]
    refine List.map_congr_left fun entry _ => ?_
    simp only [Function.comp_apply]
    split <;> rfl
  · simp

theorem StyleSelector.foldl_merge_shift (selectors found : List StyleSelector) :
    (selectors.map (·.shift 1)).foldl merge (found.map (·.shift 1)) =
      (selectors.foldl merge found).map (·.shift 1) := by
  induction selectors generalizing found with
  | nil => rfl
  | cons selector selectors ih => rw [List.map_cons, List.foldl_cons, merge_shift, ih, List.foldl_cons]

theorem StyleSelector.ofSheet_shift {above below : LineIndex}
    (hposition : ∀ offset, below.position (offset + 1) = (above.position offset).shift 1)
    (region : StyleRegion) (sheet : Sheet) :
    ofSheet below (region.shift 1) sheet = (ofSheet above region sheet).map (·.shift 1) := by
  have hrule : ∀ rule, ofRule below (region.shift 1) sheet rule =
      (ofRule above region sheet rule).map (·.shift 1) := by
    intro rule
    rw [ofRule, ofRule]
    split
    · rfl
    · rw [List.map_filterMap]
      congr 1
      funext part
      exact ofPart?_shift hposition region sheet rule part.1 part.2
  have hrules : sheet.rules.flatMap (ofRule below (region.shift 1) sheet) =
      (sheet.rules.flatMap (ofRule above region sheet)).map (·.shift 1) := by
    rw [List.map_flatMap]
    congr 1
    funext rule
    exact hrule rule
  rw [ofSheet, ofSheet, hrules]
  exact foldl_merge_shift _ []

/-! ## Overrides -/

namespace StyleOverride

def Occurrence.shift (lines : Nat) (occurrence : Occurrence) : Occurrence :=
  { occurrence with offset := occurrence.offset + lines }

theorem occurrences_shift (blocks : List (StyleRegion × Sheet)) :
    occurrences (blocks.map fun (region, sheet) => (region.shift 1, sheet)) =
      (occurrences blocks).map fun (key, occurrence) => (key, occurrence.shift 1) := by
  simp only [occurrences, List.flatMap_map, List.map_flatMap]
  congr 1
  funext block
  congr 1
  funext rule
  simp only [occurrencesOfRule, List.map_flatMap, List.map_map]
  congr 1
  funext declaration
  refine List.map_congr_left fun part _ => ?_
  have hplace : (block.1.shift 1).span.bodyStart + declaration.offset =
      block.1.span.bodyStart + declaration.offset + 1 := by
    simp only [StyleRegion.shift, ElementSpan.shift]
    omega
  simp only [Function.comp_apply, Occurrence.shift, hplace]

theorem group_shift (found : List (Key × Occurrence)) (key : Key) :
    group (found.map fun (key, occurrence) => (key, occurrence.shift 1)) key =
      (group found key).map (·.shift 1) := by
  have hkept : ((found.map fun (key, occurrence) => (key, occurrence.shift 1)).filter
        (·.1 == key)).map (·.2) = ((found.filter (·.1 == key)).map (·.2)).map (·.shift 1) := by
    rw [List.filter_map, List.map_map, List.map_map]
    rfl
  rw [group, group, hkept]
  exact (List.map_mergeSort fun a _ b _ => by simp [Occurrence.shift]).symm

theorem ofGroup_shift {above below : LineIndex}
    (hposition : ∀ offset, below.position (offset + 1) = (above.position offset).shift 1)
    (key : Key) (found : List Occurrence) :
    ofGroup below key (found.map (·.shift 1)) =
      (ofGroup above key found).map fun (offset, override) => (offset + 1, override.shift 1) := by
  simp only [ofGroup, ← List.map_drop, List.zip_map, List.map_map]
  refine List.map_congr_left fun pair _ => ?_
  simp only [Function.comp_apply, Prod.map, Occurrence.shift, hposition, StyleOverride.shift]

theorem findAll_shift {above below : LineIndex}
    (hposition : ∀ offset, below.position (offset + 1) = (above.position offset).shift 1)
    (blocks : List (StyleRegion × Sheet)) :
    findAll below (blocks.map fun (region, sheet) => (region.shift 1, sheet)) =
      (findAll above blocks).map (·.shift 1) := by
  have hkeys : ((occurrences blocks).map fun (key, occurrence) => (key, occurrence.shift 1)).map (·.1) =
      (occurrences blocks).map (·.1) := by
    rw [List.map_map]
    rfl
  have hgroups : ∀ keys : List Key, (keys.flatMap fun key => ofGroup below key
        (group ((occurrences blocks).map fun (key, occurrence) => (key, occurrence.shift 1)) key)) =
      (keys.flatMap fun key => ofGroup above key (group (occurrences blocks) key)).map
        fun (offset, override) => (offset + 1, override.shift 1) := by
    intro keys
    rw [List.map_flatMap]
    congr 1
    funext key
    rw [group_shift, ofGroup_shift hposition]
  simp only [findAll, occurrences_shift, hkeys, hgroups]
  rw [← List.map_mergeSort (r := le) fun a _ b _ => ?_, List.map_map, List.map_map]
  · rfl
  · simp [le, StyleOverride.shift]

end StyleOverride

/-! ## Reading -/

namespace Analysis

def ScriptDeclarations.shift (lines : Nat) (found : ScriptDeclarations) : ScriptDeclarations where
  scriptVariables := found.scriptVariables.map (·.shift lines)
  functions := found.functions.map (·.shift lines)
  imports := found.imports.map (·.shift lines)

theorem declarations_lineFeed (t : Text) (region : ScriptRegion) :
    declarations ('\n' :: t) (.ofText ('\n' :: t)) (region.shift 1) =
      (declarations t (.ofText t) region).shift 1 := by
  have hbody : (region.shift 1).span.body ('\n' :: t) = region.span.body t := body_shift region.span t
  have hplace : ∀ offset, (region.shift 1).span.bodyStart + offset =
      region.span.bodyStart + offset + 1 := by
    intro offset
    simp only [ScriptRegion.shift, ElementSpan.shift]
    omega
  simp only [declarations, ScriptDeclarations.shift, hbody, hplace, position_lineFeed, List.map_map]
  rfl

theorem componentImport_shift (found : Import) :
    ComponentImport.ofImport? (found.shift 1) = (ComponentImport.ofImport? found).map (·.shift 1) := by
  obtain ⟨path, kind, position, offset, endOffset, symbols, usages⟩ := found
  cases symbols with
  | nil => rfl
  | cons symbol symbols =>
    change (if kind == .static && isComponentPath path then _ else none) =
      (if kind == .static && isComponentPath path then _ else none).map _
    cases kind == .static && isComponentPath path <;> rfl

/-- The document of a file with a line feed in front. -/
theorem read_document_lineFeed (s path : Text) (options : Options) :
    (read s path options).1.LineBelow (read ('\n' :: s) path options).1 where
  text := rfl
  position := position_lineFeed s
  markup := by
    simp only [read, regions_lineFeed]
    exact Markup.ofRegions_lineFeed s (Regions.ofText s)
  sheets := by
    simp only [read, regions_lineFeed, Regions.shift, List.map_map]
    refine List.map_congr_left fun region _ => ?_
    exact congrArg Sheet.ofText (body_shift region.span s)
  options := rfl

/-- The declarations of a file with a line feed in front. -/
theorem read_analysis_lineFeed (s path : Text) (options : Options) :
    (read ('\n' :: s) path options).2 = (read s path options).2.shift 1 := by
  have hstyles : ((Regions.ofText s).shift 1).styles.map (placeRegion (.ofText ('\n' :: s))) =
      ((Regions.ofText s).styles.map (placeRegion (.ofText s))).map (·.shift 1) := by
    simp only [Regions.shift, List.map_map]
    exact List.map_congr_left fun region _ => placeRegion_shift (position_lineFeed s) region
  have hsheets : ∀ styles : List StyleRegion,
      ((styles.map (·.shift 1)).map fun region => Sheet.ofText (region.span.body ('\n' :: s))) =
        styles.map fun region => Sheet.ofText (region.span.body s) := by
    intro styles
    rw [List.map_map]
    exact List.map_congr_left fun region _ => congrArg Sheet.ofText (body_shift region.span s)
  have hfound : ((Regions.ofText s).shift 1).scripts.map
        (declarations ('\n' :: s) (.ofText ('\n' :: s))) =
      ((Regions.ofText s).scripts.map (declarations s (.ofText s))).map (·.shift 1) := by
    simp only [Regions.shift, List.map_map]
    exact List.map_congr_left fun region _ => declarations_lineFeed s region
  have hzip : ∀ (styles : List StyleRegion) (sheets : List Sheet),
      (styles.map (·.shift 1)).zip sheets =
        (styles.zip sheets).map fun block => (block.1.shift 1, block.2) := by
    intro styles sheets
    rw [← List.map_id sheets, List.zip_map, List.map_id]
    rfl
  simp only [read, regions_lineFeed, hstyles, hsheets, hfound, hzip, shift, List.flatMap_map,
    List.map_flatMap, ScriptDeclarations.shift, StyleImport.ofSheet_shift (position_lineFeed s),
    StyleSelector.ofSheet_shift (position_lineFeed s), List.map_nil, Tally.addLines]
  congr 1
  rw [← List.map_flatMap, List.filterMap_map, List.map_filterMap]
  congr 1
  funext found
  exact componentImport_shift found

/-! ## Passes -/

/-- What reading makes sure of and every pass keeps. -/
structure Grounded (document : Document) (analysis : Analysis) : Prop where
  scriptVariables : ∀ found ∈ analysis.scriptVariables, IsName found.name
  functions : ∀ found ∈ analysis.functions, IsName found.name
  imports : ∀ found ∈ analysis.imports, ∀ symbol ∈ found.symbols, IsName symbol
  empty : document.text = [] →
    document.markup.text = [] ∧ analysis.scriptVariables = [] ∧ analysis.functions = [] ∧
      analysis.imports = [] ∧ analysis.selectors = [] ∧ analysis.componentImports = [] ∧
      analysis.componentUsages = []

theorem grounded_read (s path : Text) (options : Options) :
    Grounded (read s path options).1 (read s path options).2 where
  scriptVariables := fun _ hfound => (read_variable hfound).1
  functions := fun _ hfound => read_function hfound
  imports := fun _ hfound _ hsymbol => read_import hfound hsymbol
  empty := by
    intro (hempty : s = [])
    subst hempty
    refine ⟨?_, rfl, rfl, rfl, rfl, rfl, rfl⟩
    simp [read, Regions.ofText, elements, elementsFrom, Markup.ofRegions, Markup.ofRemoved,
      Markup.piecesFrom]

theorem Grounded.run {document : Document} {analysis : Analysis} (h : Grounded document analysis)
    (pass : Pass) : Grounded document (Pass.run document analysis pass) := by
  cases pass with
  | overrides =>
    rw [Pass.run, withOverrides]
    split
    · exact h
    · exact ⟨h.scriptVariables, h.functions, h.imports, h.empty⟩
  | statistics => exact ⟨h.scriptVariables, h.functions, h.imports, h.empty⟩
  | usages =>
    rw [Pass.run, withUsages]
    split
    · exact h
    · rename_i hne
      refine ⟨?_, ?_, ?_, fun hempty => absurd (List.isEmpty_iff.mpr hempty) hne⟩
      · intro found hfound
        obtain ⟨before, hbefore, rfl⟩ := List.mem_map.mp hfound
        exact h.scriptVariables before hbefore
      · intro found hfound
        obtain ⟨before, hbefore, rfl⟩ := List.mem_map.mp hfound
        exact h.functions before hbefore
      · intro found hfound
        obtain ⟨before, hbefore, rfl⟩ := List.mem_map.mp hfound
        exact h.imports before hbefore

theorem countStatistics_lineFeed (t : Text) (analysis : Analysis) :
    countStatistics ('\n' :: t) (analysis.shift 1) = (countStatistics t analysis).addLines 1 := by
  have hselectors : (analysis.shift 1).selectors.countP (!·.htmlUsages.isEmpty) =
      analysis.selectors.countP (!·.htmlUsages.isEmpty) := by
    simp [shift, StyleSelector.shift, Function.comp_def]
  have hfunctions : (analysis.shift 1).functions.countP (!·.usages.isEmpty) =
      analysis.functions.countP (!·.usages.isEmpty) := by
    simp [shift, Function.shift, Function.comp_def]
  have hcomponents : (analysis.shift 1).componentImports.countP (·.isUsed) =
      analysis.componentImports.countP (·.isUsed) := by
    simp [shift, ComponentImport.shift, ComponentImport.isUsed, Function.comp_def]
  have hlines : Tally.addLines 1 [(("total_lines" : Text), ((t.count '\n' + 1 : Nat) : Int))] =
      [(("total_lines" : Text), ((List.count '\n' ('\n' :: t) + 1 : Nat) : Int))] := by
    rw [List.count_cons_self]
    rfl
  simp (disch := decide) only [countStatistics, hselectors, hfunctions, hcomponents,
    Tally.addLines_cons_of_ne, hlines]
  simp only [shift, List.length_map]

end Analysis

open Analysis

section Passes

variable {above below : Document} {analysis : Analysis}

theorem withOverrides_lineFeed (h : above.LineBelow below) (analysis : Analysis) :
    (analysis.shift 1).withOverrides below = (analysis.withOverrides above).shift 1 := by
  have hempty : (analysis.shift 1).styles.isEmpty = analysis.styles.isEmpty := by
    simp [Analysis.shift]
  have hblocks : (analysis.shift 1).styles.zip below.sheets =
      (analysis.styles.zip above.sheets).map fun (region, sheet) => (region.shift 1, sheet) := by
    rw [h.sheets, ← List.map_id above.sheets, Analysis.shift, List.zip_map, List.map_id]
    rfl
  simp only [withOverrides, hempty, hblocks, StyleOverride.findAll_shift h.position]
  split <;> rfl

theorem withStatistics_lineFeed (h : above.LineBelow below) (analysis : Analysis) :
    (analysis.shift 1).withStatistics below = (analysis.withStatistics above).shift 1 := by
  simp only [withStatistics, h.text, countStatistics_lineFeed]
  rfl

theorem withUsages_lineFeed (h : above.LineBelow below) (hg : Grounded above analysis) :
    (analysis.shift 1).withUsages below = (analysis.withUsages above).shift 1 := by
  have hne : below.text.isEmpty = false := by rw [h.text]; rfl
  simp only [withUsages, hne, Bool.false_eq_true, if_false]
  split
  · -- an empty file: nothing is declared, and one line feed holds no component
    rename_i hempty
    obtain ⟨hmarkup, hv, hf, hi, hs, hc, hu⟩ := hg.empty (List.isEmpty_iff.mp hempty)
    have hnone : ComponentUsage.findAll below = [] := by
      rw [ComponentUsage.findAll_lineFeed h, ComponentUsage.findAll, hmarkup,
        ComponentUsage.offsets_nil]
      rfl
    rw [hnone]
    simp [Analysis.shift, hv, hf, hi, hs, hc, hu]
  · simp only [Analysis.shift, ComponentUsage.findAll_lineFeed h, List.map_map]
    congr 1
    · refine List.map_congr_left fun found hfound => ?_
      have husages := Variable.findUsages_lineFeed h analysis.scripts
        (hg.scriptVariables found hfound).opensInk
      simp only [Function.comp_apply, husages]
      rfl
    · refine List.map_congr_left fun found hfound => ?_
      have husages := Import.findUsages_lineFeed h fun symbol hs =>
        (hg.imports found hfound symbol hs).opensInk
      simp only [Function.comp_apply, husages]
      rfl
    · refine List.map_congr_left fun found hfound => ?_
      have husages := Function.findUsages_lineFeed h (hg.functions found hfound)
      simp only [Function.comp_apply, husages]
      rfl
    · refine List.map_congr_left fun selector _ => ?_
      simp only [Function.comp_apply, StyleSelector.findUsages_lineFeed h]
      cases hused : selector.htmlUsages <;> simp [StyleSelector.shift, hused]
    · refine List.map_congr_left fun component _ => ?_
      exact ComponentImport.link_shift _ component

/-- One pass: what it fills in moves down with the file. -/
theorem run_lineFeed (h : above.LineBelow below) (hg : Grounded above analysis) (pass : Pass) :
    Pass.run below (analysis.shift 1) pass = (Pass.run above analysis pass).shift 1 := by
  cases pass with
  | overrides => exact withOverrides_lineFeed h analysis
  | statistics => exact withStatistics_lineFeed h analysis
  | usages => exact withUsages_lineFeed h hg

/-- Any passes one after the other. -/
theorem foldl_run_lineFeed (h : above.LineBelow below) (passes : List Pass)
    (hg : Grounded above analysis) :
    passes.foldl (Pass.run below) (analysis.shift 1) =
      (passes.foldl (Pass.run above) analysis).shift 1 := by
  induction passes generalizing analysis with
  | nil => rfl
  | cons pass passes ih => rw [List.foldl_cons, run_lineFeed h hg, ih (hg.run pass), List.foldl_cons]

end Passes

theorem analyzeWith_lineFeed (passes : List Pass) (s path : Text) (options : Options) :
    analyzeWith passes ('\n' :: s) path options = (analyzeWith passes s path options).shift 1 := by
  have h := foldl_run_lineFeed (read_document_lineFeed s path options) passes
    (grounded_read s path options)
  rw [analyzeWith, analyzeWith, ← h, ← read_analysis_lineFeed]

/-- Empty lines in front of a file move its analysis down as a whole. -/
theorem analyze_replicate_lineFeed (k : Nat) (s path : Text) (options : Options) :
    analyze (List.replicate k '\n' ++ s) path options = (analyze s path options).shift k := by
  induction k with
  | zero => rw [List.replicate_zero, List.nil_append, Analysis.shift_zero]
  | succ k ih =>
    calc analyze (List.replicate (k + 1) '\n' ++ s) path options
        = (analyze (List.replicate k '\n' ++ s) path options).shift 1 :=
          analyzeWith_lineFeed Pass.all (List.replicate k '\n' ++ s) path options
      _ = ((analyze s path options).shift k).shift 1 := by rw [ih]
      _ = (analyze s path options).shift (k + 1) := Analysis.shift_shift k 1 _

end ComponentAudit
