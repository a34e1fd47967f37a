import ComponentAudit.Proofs.Component.Markup
import ComponentAudit.Proofs.Component.Pass
import ComponentAudit.Proofs.Text.Line
import ComponentAudit.Proofs.Usage.Order

/-! # Uses in reading order

Every list of uses in an analysis is in reading order, and every use that was searched for comes with
the line it is on. Uses come from offsets of the file or of its markup; both maps, from the markup to
the file and from the file to lines and columns, keep the order. A selector that counts as used
without a search has a note instead, which stands at the selector and shows no line. -/

namespace ComponentAudit

open Analysis

/-- A use comes with the trimmed line that its position numbers. -/
def Usage.ShowsLine (source : Text) (usage : Usage) : Prop :=
  ((Text.splitOn '\n' source)[usage.position.line - 1]?).map Text.trim = some usage.context

/-- Uses in an order of positions, each with its line. -/
structure Usage.Listed (order : Position → Position → Prop) (source : Text) (usages : List Usage) :
    Prop where
  ordered : usages.Pairwise fun a b => order a.position b.position
  shown : ∀ usage ∈ usages, usage.ShowsLine source

/-- A use of a component as its import lists it. -/
def ComponentUsage.usage (found : ComponentUsage) : Usage :=
  { position := found.position, context := found.context, elementName := some found.componentName }

/-- The use that stands for an id which the page is known to have. -/
def pageMark (position : Position) : Usage :=
  { position, context := "global ID auto-detected as used"
    elementName := some "global", attributeName := some "id" }

/-- The notes on a selector that counts as used: that of its kind, and that of an id of the page. -/
inductive StyleSelector.Note (options : Options) (selector : StyleSelector) : Usage → Prop
  | counted (use : AutoUse) : Note options selector (use.mark selector.position)
  | ofPage (hid : selector.kind = .id) (hpage : selector.isGlobal = true)
      (hknown : selector.name ∈ options.globalIds) :
      Note options selector (pageMark selector.position)

/-- What the uses of a selector are: a note, or what was found, in order and with its lines. -/
structure StyleSelector.Listed (source : Text) (options : Options) (selector : StyleSelector) :
    Prop where
  ordered : selector.htmlUsages.Pairwise fun a b => a.position.UpTo b.position
  shown : (∃ note, selector.Note options note ∧ selector.htmlUsages = [note]) ∨
    ∀ usage ∈ selector.htmlUsages, usage.ShowsLine source

/-- An analysis whose uses are in reading order and show their lines. -/
structure Analysis.Listed (source : Text) (options : Options) (analysis : Analysis) : Prop where
  scriptVariables : ∀ found ∈ analysis.scriptVariables,
    Usage.Listed Position.Before source found.usages
  functions : ∀ found ∈ analysis.functions, Usage.Listed Position.Before source found.usages
  imports : ∀ found ∈ analysis.imports, Usage.Listed Position.Before source found.usages
  componentUsages : Usage.Listed Position.Before source (analysis.componentUsages.map (·.usage))
  componentImports : ∀ found ∈ analysis.componentImports,
    Usage.Listed Position.Before source found.usages ∧
    found.usages = (analysis.componentUsages.filter
      (·.componentName == found.componentName)).map (·.usage)
  selectors : ∀ found ∈ analysis.selectors, found.Listed source options

theorem Usage.Listed.sublist {order : Position → Position → Prop} {source : Text}
    {few many : List Usage} (h : Usage.Listed order source many) (hfew : few.Sublist many) :
    Usage.Listed order source few where
  ordered := h.ordered.sublist hfew
  shown usage husage := h.shown usage (hfew.subset husage)

variable {source path : Text} {options : Options}

/-! ## Uses at offsets -/

theorem position_usageAt (offset : Nat) :
    ((documentOf source path options).usageAt offset).position = source.positionAt offset :=
  position_eq_positionAt source offset

theorem showsLine_usageAt (offset : Nat) :
    ((documentOf source path options).usageAt offset).ShowsLine source := by
  rw [Usage.ShowsLine, position_usageAt]
  exact lineContext_eq source offset

theorem listed_usageAt {offsets : List Nat} (hordered : offsets.Pairwise (· < ·))
    (hinside : ∀ offset ∈ offsets, offset < source.length) :
    Usage.Listed Position.Before source (offsets.map (documentOf source path options).usageAt) where
  ordered := by
    rw [List.pairwise_map]
    refine hordered.imp_of_mem ?_
    intro a b _ hb hlt
    rw [position_usageAt, position_usageAt]
    exact Text.positionAt_before hlt (Nat.le_of_lt (hinside b hb))
  shown usage husage := by
    obtain ⟨offset, -, rfl⟩ := List.mem_map.mp husage
    exact showsLine_usageAt offset

/-! ## Declarations -/

theorem Variable.lt_length_of_mem_markupOffsets {found : Variable} {offset : Nat}
    (h : offset ∈ markupOffsets (documentOf source path options) found) : offset < source.length := by
  obtain ⟨name, -, hname⟩ := List.mem_flatMap.mp h
  obtain ⟨place, hplace, rfl⟩ := List.mem_map.mp hname
  have hinside := Text.lt_length_of_mem_tokensIn (List.mem_filter.mp hplace).1
  exact Markup.sourceIndex_lt_length hinside

theorem Variable.lt_length_of_mem_scriptOffsets {found : Variable} {scripts : List ScriptRegion}
    {offset : Nat} (h : offset ∈ scriptOffsets (documentOf source path options) scripts found) :
    offset < source.length := by
  unfold scriptOffsets at h
  split at h
  · cases h
  · rcases List.mem_append.mp h with hplain | hstore
    · exact Text.lt_length_of_mem_tokensIn (List.mem_filter.mp hplain).1
    · exact Text.lt_length_of_mem_tokensIn hstore

theorem Variable.listed_findUsages (found : Variable) (scripts : List ScriptRegion) :
    Usage.Listed Position.Before source
      (found.findUsages (documentOf source path options) scripts) := by
  refine listed_usageAt (pairwise_sortOffsets _) ?_
  intro offset hoffset
  rcases List.mem_append.mp (mem_sortOffsets.mp hoffset) with hscript | hmarkup
  · exact lt_length_of_mem_scriptOffsets hscript
  · split at hmarkup
    · exact lt_length_of_mem_markupOffsets hmarkup
    · cases hmarkup

theorem Function.listed_findUsages (found : Function) :
    Usage.Listed Position.Before source (found.findUsages (documentOf source path options)) := by
  refine listed_usageAt ((pairwise_sortOffsets _).filter _) ?_
  intro offset hoffset
  rcases List.mem_append.mp (mem_sortOffsets.mp (List.mem_filter.mp hoffset).1) with hprobe | hcall
  · obtain ⟨probe, -, hprobe⟩ := List.mem_flatMap.mp hprobe
    exact Text.lt_length_of_mem_occurrences (List.mem_filter.mp hprobe).1
  · obtain ⟨call, -, hcall⟩ := List.mem_flatMap.mp hcall
    exact Text.lt_length_of_mem_occurrences (List.mem_filter.mp hcall).1

theorem Import.listed_findUsages (found : Import) :
    Usage.Listed Position.Before source (found.findUsages (documentOf source path options)) := by
  refine listed_usageAt (pairwise_sortOffsets _) ?_
  intro offset hoffset
  obtain ⟨symbol, -, hsymbol⟩ := List.mem_flatMap.mp (mem_sortOffsets.mp hoffset)
  exact Text.lt_length_of_mem_tokensIn (List.mem_filter.mp hsymbol).1

/-! ## Components -/

theorem ComponentUsage.map_usage_findAll (document : Document) :
    (findAll document).map (·.usage) = (offsets document.markup.text).map fun found =>
      { document.usageAt (document.markup.sourceIndex found.1) with
        elementName := some found.2 } := by
  rw [findAll, List.map_map]
  rfl

theorem ComponentUsage.listed_findAll :
    Usage.Listed Position.Before source
      ((findAll (documentOf source path options)).map (·.usage)) := by
  rw [map_usage_findAll]
  constructor
  · rw [List.pairwise_map]
    refine (pairwise_offsets _).imp_of_mem ?_
    intro a b _ hb hlt
    have hinside := Markup.sourceIndex_lt_length (lt_length_of_mem_offsets hb)
    rw [position_usageAt, position_usageAt]
    exact Text.positionAt_before (Markup.strictMono_sourceIndex source hlt) (Nat.le_of_lt hinside)
  · intro usage husage
    obtain ⟨found, -, rfl⟩ := List.mem_map.mp husage
    exact @showsLine_usageAt source path options _

/-! ## Selectors -/

theorem Document.position_markupUsage (document : Document) (offset : Nat) (kind : Text)
    (element : Option Text) :
    (document.markupUsage offset kind element).position =
      (document.usageAt (document.markup.sourceIndex offset)).position :=
  rfl

theorem upTo_markupUsage {a b : Nat} (h : a ≤ b) (kind kind' : Text)
    (element element' : Option Text) :
    ((documentOf source path options).markupUsage a kind element).position.UpTo
      ((documentOf source path options).markupUsage b kind' element').position := by
  rw [Document.position_markupUsage, Document.position_markupUsage, position_usageAt,
    position_usageAt]
  exact source.positionAt_upTo ((Markup.strictMono_sourceIndex source).monotone h)

theorem showsLine_markupUsage (offset : Nat) (kind : Text) (element : Option Text) :
    ((documentOf source path options).markupUsage offset kind element).ShowsLine source :=
  @showsLine_usageAt source path options _

theorem listed_markupUsage {α : Type} {l : List α} (offset : α → Nat) (kind : α → Text)
    (element : α → Option Text) (h : l.Pairwise fun a b => offset a ≤ offset b) :
    Usage.Listed Position.UpTo source (l.map fun a =>
      (documentOf source path options).markupUsage (offset a) (kind a) (element a)) where
  ordered := by
    rw [List.pairwise_map]
    refine h.imp ?_
    intro a b hle
    exact upTo_markupUsage hle _ _ _ _
  shown usage husage := by
    obtain ⟨a, -, rfl⟩ := List.mem_map.mp husage
    exact showsLine_markupUsage _ _ _

namespace StyleSelector

theorem listed_classUsages (attributes : List ClassAttribute) (name : Text) :
    Usage.Listed Position.UpTo source
      (classUsages (documentOf source path options) attributes name) :=
  listed_markupUsage Prod.fst Prod.snd (fun _ => none) (pairwise_mergeSort_key Prod.fst _)

theorem listed_elementUsages (name : Text) :
    Usage.Listed Position.UpTo source (elementUsages (documentOf source path options) name) := by
  have hordered := (Text.pairwise_occurrences
    (documentOf source path options).markup.text ('<' :: name)).imp Nat.le_of_lt
  exact listed_markupUsage id (fun _ => "element") (fun _ => some name) (hordered.filter _)

theorem listed_idUsages (selector : StyleSelector) :
    Usage.Listed Position.UpTo source ((Cursor.collect idAttribute?
      (documentOf source path options).markup.text).filterMap fun (offset, value) =>
        if Text.trim value == selector.name then
          some ((documentOf source path options).markupUsage offset "id" none)
        else none) where
  ordered := by
    refine (pairwise_idAttributes _).filterMap _ ?_
    rintro ⟨a, value⟩ ⟨b, value'⟩ hlt first hfirst second hsecond
    simp only [Option.ite_none_right_eq_some, Option.some.injEq] at hfirst hsecond
    rw [← hfirst.2, ← hsecond.2]
    exact upTo_markupUsage (Nat.le_of_lt hlt) _ _ _ _
  shown usage husage := by
    obtain ⟨⟨offset, value⟩, -, hfound⟩ := List.mem_filterMap.mp husage
    simp only [Option.ite_none_right_eq_some, Option.some.injEq] at hfound
    rw [← hfound.2]
    exact showsLine_markupUsage _ _ _

/-- What a search gives a selector: the note of an id of the page, or uses in the markup. -/
theorem findUsages_cases (selector : StyleSelector) (attributes : List ClassAttribute) :
    (selector.kind = .id ∧ selector.isGlobal = true ∧ selector.name ∈ options.globalIds ∧
      selector.findUsages (documentOf source path options) attributes =
        [pageMark selector.position]) ∨
    Usage.Listed Position.UpTo source
      (selector.findUsages (documentOf source path options) attributes) := by
  unfold findUsages
  split
  case h_1 => exact .inr (listed_classUsages attributes selector.name)
  case h_2 hid =>
    unfold idUsages
    split
    · rename_i hpage
      rw [Bool.and_eq_true, List.contains_iff_mem] at hpage
      exact .inl ⟨hid, hpage.1, hpage.2, rfl⟩
    · exact .inr (listed_idUsages selector)
  case h_3 => exact .inr (listed_elementUsages selector.name)
  all_goals exact .inr ⟨.nil, fun usage husage => (List.not_mem_nil husage).elim⟩

end StyleSelector

/-- A selector of an analysis was declared, and has its notes or the uses found for it. -/
theorem Analysis.mem_selectors {found : StyleSelector}
    (h : found ∈ (analyze source path options).selectors) :
    ∃ declared ∈ (declaredIn source path options).selectors,
      found = if declared.htmlUsages.isEmpty then
        { declared with
          htmlUsages := declared.findUsages (documentOf source path options)
            (ClassAttribute.findAll (documentOf source path options).markup.text) }
      else declared := by
  obtain ⟨overrides, statistics, heq⟩ := analyze_eq source path options
  rw [heq] at h
  cases source with
  | nil => cases h
  | cons c source =>
    obtain ⟨declared, hdeclared, rfl⟩ := List.mem_map.mp h
    exact ⟨declared, hdeclared, rfl⟩

theorem listed_selector {found : StyleSelector}
    (h : found ∈ (analyze source path options).selectors) : found.Listed source options := by
  obtain ⟨declared, hdeclared, rfl⟩ := mem_selectors h
  have hunsearched := unsearched_declaredIn source path options
  obtain ⟨autoUse, hmarked⟩ := hunsearched.selectors declared hdeclared
  cases autoUse with
  | some use =>
    -- noted when it was declared, so the search left it alone
    have hnote : declared.htmlUsages = [use.mark declared.position] := hmarked
    rw [hnote, if_neg (by simp)]
    refine ⟨?_, .inl ⟨_, .counted use, hnote⟩⟩
    rw [hnote]
    exact List.pairwise_singleton _ _
  | none =>
    have hnone : declared.htmlUsages = [] := hmarked
    rw [hnone, if_pos List.isEmpty_nil]
    have hcases := @StyleSelector.findUsages_cases source path options declared
      (ClassAttribute.findAll (documentOf source path options).markup.text)
    rcases hcases with ⟨hid, hpage, hknown, hsingle⟩ | hsearched
    · refine ⟨?_, .inl ⟨_, .ofPage hid hpage hknown, hsingle⟩⟩
      rw [hsingle]
      exact List.pairwise_singleton _ _
    · exact ⟨hsearched.ordered, .inr hsearched.shown⟩

/-! ## The whole analysis -/

theorem listed_componentUsages :
    Usage.Listed Position.Before source
      ((analyze source path options).componentUsages.map (·.usage)) := by
  obtain ⟨overrides, statistics, heq⟩ := analyze_eq source path options
  rw [heq]
  cases source with
  | nil => exact ⟨.nil, fun usage husage => (List.not_mem_nil husage).elim⟩
  | cons c source => exact ComponentUsage.listed_findAll

theorem usages_componentImport {found : ComponentImport}
    (h : found ∈ (analyze source path options).componentImports) :
    found.usages = ((analyze source path options).componentUsages.filter
      (·.componentName == found.componentName)).map (·.usage) := by
  obtain ⟨overrides, statistics, heq⟩ := analyze_eq source path options
  rw [heq] at h ⊢
  cases source with
  | nil => cases h
  | cons c source =>
    obtain ⟨declared, -, rfl⟩ := List.mem_map.mp h
    rfl

/-- Whatever the file and the settings, the uses of an analysis are in reading order, those of a
component are the uses of components that bear its name, and every use but a note shows its line. -/
theorem listed_analyze (source path : Text) (options : Options) :
    (analyze source path options).Listed source options where
  scriptVariables found h := by
    obtain ⟨declared, -, rfl⟩ := mem_scriptVariables h
    exact Variable.listed_findUsages declared _
  functions found h := by
    obtain ⟨declared, -, rfl⟩ := mem_functions h
    exact Function.listed_findUsages declared
  imports found h := by
    obtain ⟨declared, -, rfl⟩ := mem_imports h
    exact Import.listed_findUsages declared
  componentUsages := listed_componentUsages
  componentImports found h := by
    have husages := usages_componentImport h
    refine ⟨?_, husages⟩
    rw [husages]
    exact listed_componentUsages.sublist (List.filter_sublist.map _)
  selectors found h := listed_selector h

end ComponentAudit
