import ComponentAudit.Proofs.Component.Pass
import ComponentAudit.Proofs.Script.Place
import ComponentAudit.Proofs.Style.Nesting
import ComponentAudit.Proofs.Style.RoundTrip
import ComponentAudit.Proofs.Text.Position
import ComponentAudit.Proofs.Text.Slice

/-! # Locations

Every location that an analysis reports is that of its own token in the source. Searches run on the
body of an element with its comments masked; masking keeps every offset, and names hold no blank, so a
name found in the masked body stands in the source, as far behind the start of the body. -/

namespace ComponentAudit

/-! ## From a masked body to the source -/

namespace ElementSpan

/-- A word stands in the source at an offset, inside the body of an element. -/
structure Shows (span : ElementSpan) (source word : Text) (offset : Nat) : Prop where
  reads : source.slice offset (offset + word.length) = word
  start : span.bodyStart ≤ offset
  stop : offset + word.length ≤ span.bodyEnd

variable {span : ElementSpan} {source masked word : Text} {n : Nat}

theorem body_prefix (span : ElementSpan) (source : Text) :
    span.body source <+: source.drop span.bodyStart :=
  List.take_prefix _ _

theorem length_masked_le (hmask : MaskOf (span.body source) masked) :
    masked.length ≤ span.bodyEnd - span.bodyStart := by
  rw [hmask.length_eq, body, Text.slice, List.length_take]
  exact Nat.min_le_left _ _

theorem add_length_le_bodyEnd (hmask : MaskOf (span.body source) masked) (hne : word ≠ [])
    (h : word <+: masked.drop n) : span.bodyStart + n + word.length ≤ span.bodyEnd := by
  have hpos := List.length_pos_iff.mpr hne
  have hin := h.length_le
  have hlen := length_masked_le hmask
  rw [List.length_drop] at hin
  omega

/-- A word without blanks that stands in a masked body stands in the source. -/
theorem shows_of_masked (hmask : MaskOf (span.body source) masked) (hne : word ≠ [])
    (hblank : ' ' ∉ word) (h : word <+: masked.drop n) :
    span.Shows source word (span.bodyStart + n) where
  reads := Text.slice_of_prefix (Text.prefix_drop_add (span.body_prefix source)
    (hmask.prefix_drop hblank h))
  start := Nat.le_add_right _ _
  stop := add_length_le_bodyEnd hmask hne h

end ElementSpan

theorem IsName.no_blank {name : Text} (h : IsName name) : ' ' ∉ name := by
  intro hmem
  have hident := h.2 ' ' hmem
  rw [isIdentChar_of_isSpace (by decide)] at hident
  cases hident

theorem ScriptRegion.shows_of_namedAt {region : ScriptRegion} {source name : Text} {n : Nat}
    (h : NamedAt (Comment.maskScript (region.span.body source)) name n) :
    region.span.Shows source name (region.span.bodyStart + n) :=
  ElementSpan.shows_of_masked (Comment.maskOf_maskScript _) h.1.1 h.1.no_blank h.2

theorem isPropertyName_no_blank {name : Text} (h : isPropertyName name = true) : ' ' ∉ name := by
  intro hmem
  have hchar := Style.propertyChar_spec h ' ' hmem
  revert hchar
  decide

/-! ## Located entries -/

/-- The name of a variable stands in the body of one script and no other, and its statement starts no
later. -/
structure Variable.LocatedIn (source : Text) (scripts : List ScriptRegion) (found : Variable) :
    Prop where
  script : ∃ region, (scripts.filter fun region =>
      region.span.bodyStart ≤ found.nameOffset && found.nameOffset < region.span.bodyEnd) = [region] ∧
    region.span.Shows source found.name found.nameOffset
  statement : found.offset ≤ found.nameOffset
  position : found.position = source.positionAt found.nameOffset

structure Function.LocatedIn (source : Text) (scripts : List ScriptRegion) (found : Function) :
    Prop where
  script : ∃ region ∈ scripts, region.span.Shows source found.name found.offset
  position : found.position = source.positionAt found.offset

/-- An import opens with its word, and ends behind its start in the body of the same script. -/
structure Import.LocatedIn (source : Text) (scripts : List ScriptRegion) (found : Import) : Prop where
  script : ∃ region ∈ scripts, region.span.Shows source "import" found.offset ∧
    found.endOffset ≤ region.span.bodyEnd
  nonempty : found.offset < found.endOffset
  position : found.position = source.positionAt found.offset

/-- A part of a selector list stands in a style element, `n` characters behind the start of its body,
once the comments are masked. -/
structure StyleRegion.ShowsSelector (region : StyleRegion) (source written : Text) (n : Nat) :
    Prop where
  nonempty : written ≠ []
  trimmed : Text.trim written = written
  reads : (Comment.maskStyle (region.span.body source)).slice n (n + written.length) = written
  stop : region.span.bodyStart + n + written.length ≤ region.span.bodyEnd

def StyleSelector.LocatedIn (source : Text) (styles : List StyleRegion) (found : StyleSelector) : Prop :=
  ∃ region ∈ styles, ∃ written n, region.ShowsSelector source written n ∧
    found.selectorText = Text.squeeze written ∧
    found.position = source.positionAt (region.span.bodyStart + n)

/-- The source reads the name of a property at an offset inside a style element. Comments apart, only
white space stands between the name and the colon behind it. -/
def StyleRegion.ShowsProperty (region : StyleRegion) (source property : Text) (offset : Nat) : Prop :=
  ∃ name spaces : Text, isPropertyName name = true ∧
    property = (if ("--" : Text).isPrefixOf name then name else Text.lower name) ∧
    region.span.Shows source name offset ∧ Blank spaces ∧
    name ++ spaces ++ [':'] <+:
      (Comment.maskStyle (region.span.body source)).drop (offset - region.span.bodyStart)

/-- Both declarations that an override speaks of are of its property. -/
def StyleOverride.LocatedIn (source : Text) (styles : List StyleRegion) (found : StyleOverride) : Prop :=
  ∀ position ∈ [found.position, found.previous], ∃ region ∈ styles, ∃ offset,
    region.ShowsProperty source found.property offset ∧ position = source.positionAt offset

/-- Every location of an analysis is that of its own token in the source. -/
structure Analysis.Located (source : Text) (analysis : Analysis) : Prop where
  scriptVariables : ∀ found ∈ analysis.scriptVariables, found.LocatedIn source analysis.scripts
  functions : ∀ found ∈ analysis.functions, found.LocatedIn source analysis.scripts
  imports : ∀ found ∈ analysis.imports, found.LocatedIn source analysis.scripts
  selectors : ∀ found ∈ analysis.selectors, found.LocatedIn source analysis.styles
  overrides : ∀ found ∈ analysis.overrides, found.LocatedIn source analysis.styles

namespace Analysis

/-! ## What is read -/

section Read

variable {source path : Text} {options : Options}

theorem read_variable_located {found : Variable}
    (h : found ∈ (declaredIn source path options).scriptVariables) :
    found.LocatedIn source (Regions.ofText source).scripts := by
  obtain ⟨declarations, hin, hmem⟩ := List.mem_flatMap.mp h
  obtain ⟨region, hregion, rfl⟩ := List.mem_map.mp hin
  obtain ⟨inScript, hfound, rfl⟩ := List.mem_map.mp hmem
  have hnamed := Variable.namedAt_findAll hfound
  have hholds := ScriptRegion.holds_of_lt hnamed.lt.2
  refine ⟨⟨region, filter_scripts_of_holds hregion hholds, ?_⟩, ?_, ?_⟩
  · exact ScriptRegion.shows_of_namedAt hnamed
  · exact Nat.add_le_add_left (Variable.statement_le_findAll hfound) _
  · exact position_eq_positionAt source _

theorem read_function_located {found : Function}
    (h : found ∈ (declaredIn source path options).functions) :
    found.LocatedIn source (Regions.ofText source).scripts := by
  obtain ⟨declarations, hin, hmem⟩ := List.mem_flatMap.mp h
  obtain ⟨region, hregion, rfl⟩ := List.mem_map.mp hin
  obtain ⟨inScript, hfound, rfl⟩ := List.mem_map.mp hmem
  refine ⟨⟨region, hregion, ?_⟩, position_eq_positionAt source _⟩
  exact ScriptRegion.shows_of_namedAt (Function.namedAt_findAll hfound)

theorem read_import_located {found : Import} (h : found ∈ (declaredIn source path options).imports) :
    found.LocatedIn source (Regions.ofText source).scripts := by
  obtain ⟨declarations, hin, hmem⟩ := List.mem_flatMap.mp h
  obtain ⟨region, hregion, rfl⟩ := List.mem_map.mp hin
  obtain ⟨inScript, hfound, rfl⟩ := List.mem_map.mp hmem
  have hmask := Comment.maskOf_maskScript (region.span.body source)
  have hplaced := Import.placedIn_findAll hfound
  have hnonempty := hplaced.nonempty
  refine ⟨⟨region, hregion, ?_, ?_⟩, Nat.add_lt_add_left hnonempty _, position_eq_positionAt source _⟩
  · exact ElementSpan.shows_of_masked hmask (by decide) (by decide) hplaced.word
  · have hinside := hplaced.inside
    have hlen := ElementSpan.length_masked_le hmask
    change region.span.bodyStart + inScript.stop ≤ region.span.bodyEnd
    omega

/-- The style elements of a file, with the positions of their ends. -/
def stylesOf (source : Text) : List StyleRegion :=
  (Regions.ofText source).styles.map (placeRegion (LineIndex.ofText source))

/-- The style elements of a file with their sheets. -/
def blocksOf (source : Text) : List (StyleRegion × Sheet) :=
  (stylesOf source).zip ((stylesOf source).map fun region => Sheet.ofText (region.span.body source))

theorem mem_blocksOf {block : StyleRegion × Sheet} (h : block ∈ blocksOf source) :
    ∃ region ∈ stylesOf source, block = (region, Sheet.ofText (region.span.body source)) := by
  rw [blocksOf, ← List.map_prod_left_eq_zip] at h
  obtain ⟨region, hregion, rfl⟩ := List.mem_map.mp h
  exact ⟨region, hregion, rfl⟩

theorem read_selector_located {found : StyleSelector}
    (h : found ∈ (declaredIn source path options).selectors) :
    found.LocatedIn source (stylesOf source) := by
  obtain ⟨block, hblock, hentry⟩ := List.mem_flatMap.mp h
  obtain ⟨region, hregion, rfl⟩ := mem_blocksOf hblock
  obtain ⟨rule, hrule, part, relative, hpart, hdeclares⟩ := StyleSelector.ofSheet_declaredBy hentry
  obtain ⟨place, hat⟩ := Sheet.exists_at_of_mem hrule
  rw [((Sheet.ofText_nested _).titled place rule hat).selectorList_eq] at hpart
  obtain ⟨hne, htrim, hin⟩ := Selector.mem_split hpart
  have hstands := Text.prefix_drop_add (Sheet.ofText_placedIn _ rule hrule).selectors hin
  refine ⟨region, hregion, part, rule.offset + relative, ⟨hne, htrim, ?_, ?_⟩, hdeclares.text, ?_⟩
  · exact Text.slice_of_prefix hstands
  · exact ElementSpan.add_length_le_bodyEnd (Comment.maskOf_maskStyle _) hne hstands
  · rw [hdeclares.position, Nat.add_assoc]
    exact position_eq_positionAt source _

theorem located_declaredIn (source path : Text) (options : Options) :
    (declaredIn source path options).Located source where
  scriptVariables _ h := read_variable_located h
  functions _ h := read_function_located h
  imports _ h := read_import_located h
  selectors _ h := read_selector_located h
  overrides _ h := (List.not_mem_nil h).elim

end Read

/-! ## What the passes fill in -/

theorem occurrence_located {source : Text} {key : StyleOverride.Key} {found : StyleOverride.Occurrence}
    (h : (key, found) ∈ StyleOverride.occurrences (blocksOf source)) :
    ∃ region ∈ stylesOf source, region.ShowsProperty source key.property found.offset := by
  obtain ⟨block, hblock, rule, hrule, declaration, hdeclaration, hproperty, hoffset⟩ :=
    StyleOverride.mem_occurrences h
  obtain ⟨region, hregion, rfl⟩ := mem_blocksOf hblock
  obtain ⟨name, spaces, hname, hblank, hstands, hwritten⟩ :=
    (Sheet.ofText_placedIn _ rule hrule).declarations declaration hdeclaration
  have hreads : name <+: name ++ spaces ++ [':'] := by simp
  refine ⟨region, hregion, name, spaces, hname, hproperty.trans hwritten, ?_, hblank, ?_⟩
  · rw [hoffset]
    exact ElementSpan.shows_of_masked (Comment.maskOf_maskStyle _) (Style.propertyName_ne_nil hname)
      (isPropertyName_no_blank hname) (hreads.trans hstands)
  · rw [hoffset, Nat.add_sub_cancel_left]
    exact hstands

theorem override_located {source : Text} {found : StyleOverride}
    (h : found ∈ StyleOverride.findAll (LineIndex.ofText source) (blocksOf source)) :
    found.LocatedIn source (stylesOf source) := by
  obtain ⟨key, previous, current, hprevious, hcurrent, hproperty, hposition, hbefore⟩ :=
    StyleOverride.mem_findAll h
  rw [position_eq_positionAt] at hposition hbefore
  intro position hmem
  rcases List.mem_pair.mp hmem with rfl | rfl
  · obtain ⟨region, hregion, hshows⟩ := occurrence_located hcurrent
    exact ⟨region, hregion, current.offset, hproperty ▸ hshows, hposition⟩
  · obtain ⟨region, hregion, hshows⟩ := occurrence_located hprevious
    exact ⟨region, hregion, previous.offset, hproperty ▸ hshows, hbefore⟩

section Passes

variable {source : Text} {analysis : Analysis}

/-- The overrides are found in the style elements of the file, so these have to be still there. -/
theorem Located.withOverrides (h : analysis.Located source) (hstyles : analysis.styles = stylesOf source)
    (path : Text) (options : Options) :
    (analysis.withOverrides (documentOf source path options)).Located source := by
  unfold Analysis.withOverrides
  split
  · exact h
  · refine { h with overrides := fun found hfound => ?_ }
    change found.LocatedIn source analysis.styles
    rw [hstyles] at hfound ⊢
    exact override_located hfound

/-- Uses are beside all locations. -/
theorem Located.withUsages (h : analysis.Located source) (document : Document) :
    (analysis.withUsages document).Located source := by
  unfold Analysis.withUsages
  split
  · exact h
  · refine ⟨fun found hfound => ?_, fun found hfound => ?_, fun found hfound => ?_,
      fun found hfound => ?_, h.overrides⟩
    · obtain ⟨declared, hdeclared, rfl⟩ := List.mem_map.mp hfound
      exact { h.scriptVariables declared hdeclared with }
    · obtain ⟨declared, hdeclared, rfl⟩ := List.mem_map.mp hfound
      exact { h.functions declared hdeclared with }
    · obtain ⟨declared, hdeclared, rfl⟩ := List.mem_map.mp hfound
      exact { h.imports declared hdeclared with }
    · obtain ⟨declared, hdeclared, rfl⟩ := List.mem_map.mp hfound
      split <;> exact h.selectors declared hdeclared

theorem styles_run (document : Document) (pass : Pass) :
    (pass.run document analysis).styles = analysis.styles := by
  cases pass with
  | overrides =>
    obtain ⟨overrides, heq⟩ := withOverrides_eq analysis document
    rw [Pass.run, heq]
  | usages => exact styles_withUsages analysis document
  | statistics => rfl

theorem Located.run (h : analysis.Located source) (hstyles : analysis.styles = stylesOf source)
    (path : Text) (options : Options) (pass : Pass) :
    (pass.run (documentOf source path options) analysis).Located source := by
  cases pass with
  | overrides => exact h.withOverrides hstyles path options
  | usages => exact h.withUsages _
  | statistics => exact { h with }

theorem Located.foldl_run (h : analysis.Located source) (hstyles : analysis.styles = stylesOf source)
    (path : Text) (options : Options) (passes : List Pass) :
    (passes.foldl (Pass.run (documentOf source path options)) analysis).Located source := by
  induction passes generalizing analysis with
  | nil => exact h
  | cons pass passes ih =>
    exact ih (h.run hstyles path options pass) ((styles_run _ pass).trans hstyles)

end Passes

end Analysis

/-- Every location that an analysis reports is that of its own token, whatever its passes. -/
theorem analyzeWith_located (passes : List Pass) (source path : Text) (options : Options) :
    (analyzeWith passes source path options).Located source :=
  (Analysis.located_declaredIn source path options).foldl_run rfl path options passes

end ComponentAudit
