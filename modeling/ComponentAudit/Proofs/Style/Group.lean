import ComponentAudit.Proofs.Style.Outline
import ComponentAudit.Proofs.Usage.Order
import Mathlib.Algebra.BigOperators.Group.Finset.Basic

/-! # Declarations of one group

A declaration stands in the group of a condition, a selector and a property as often as its rule lists
the selector. Overrides are the consecutive pairs of the groups, brought into the order of the file. -/

namespace ComponentAudit

open scoped BigOperators

/-- The selectors of a rule with their white space squeezed, each as often as it is listed. -/
def Rule.listed (rule : Rule) : List Text :=
  (Selector.split rule.selectorList).map fun (part, _) => Text.squeeze part

namespace StyleOverride

/-- A declaration with the rule and the style element that hold it. -/
structure Site where
  region : StyleRegion
  rule : Rule
  declaration : Declaration

namespace Site

/-- Where the declaration stands in the file. -/
def offset (site : Site) : Nat := site.region.span.bodyStart + site.declaration.offset

/-- The declaration as it is kept in a group. -/
def occurrence (site : Site) : Occurrence := ⟨site.offset, site.declaration.important⟩

/-- The group of the declaration under one of the selectors of its rule. -/
def key (site : Site) (selector : Text) : Key :=
  ⟨site.rule.context, selector, site.declaration.property⟩

/-- How often the declaration stands in a group. -/
def multiplicity (site : Site) (key : Key) : Nat :=
  if site.rule.context = key.context ∧ site.declaration.property = key.property then
    site.rule.listed.count key.selector
  else 0

end Site

/-- The declarations of some style elements. -/
def sites (blocks : List (StyleRegion × Sheet)) : List Site :=
  blocks.flatMap fun (region, sheet) =>
    sheet.rules.flatMap fun rule => rule.declarations.map fun declaration => ⟨region, rule, declaration⟩

/-- The declarations of a group, each as often as it stands there. -/
def declared (blocks : List (StyleRegion × Sheet)) (key : Key) : List Occurrence :=
  (sites blocks).flatMap fun site => List.replicate (site.multiplicity key) site.occurrence

/-- The declarations of a group in the order of the file. -/
def ordered (blocks : List (StyleRegion × Sheet)) (key : Key) : List Occurrence :=
  (declared blocks key).mergeSort fun a b => a.offset ≤ b.offset

/-- Each member of a list with the one behind it. -/
def consecutive {α : Type} (l : List α) : List (α × α) := l.zip l.tail

/-- The override of a declaration by the next one of its group, with its offset. -/
def ofPair (index : LineIndex) (key : Key) (pair : Occurrence × Occurrence) : Nat × StyleOverride :=
  (pair.2.offset, {
    property := key.property
    selector := key.selector
    position := index.position pair.2.offset
    specificity := Selector.specificity key.selector
    important := pair.2.important
    previous := index.position pair.1.offset })

/-- Two declarations of one group, the first of which is overridden by the second. -/
structure Between (index : LineIndex) (override : StyleOverride) (earlier later : Site) : Prop where
  context : earlier.rule.context = later.rule.context
  selector : override.selector ∈ earlier.rule.listed ∧ override.selector ∈ later.rule.listed
  property : earlier.declaration.property = override.property ∧
    later.declaration.property = override.property
  position : override.position = index.position later.offset
  previous : override.previous = index.position earlier.offset

/-- What overrides some style elements have, given the groups in which something is declared and the
overrides with their offsets. -/
structure FoundIn (index : LineIndex) (blocks : List (StyleRegion × Sheet)) (groups : Finset Key)
    (placed : List (Nat × StyleOverride)) (overrides : List StyleOverride) : Prop where
  nonempty : ∀ key, key ∈ groups ↔ declared blocks key ≠ []
  listed : overrides = placed.map (·.2)
  ordered : placed.Pairwise fun a b =>
    a.1 < b.1 ∨ a.1 = b.1 ∧ Text.le a.2.selector b.2.selector = true
  /-- One override for each consecutive pair of each group, and no other. -/
  exact : (placed : Multiset (Nat × StyleOverride)) = ∑ key ∈ groups,
    (((consecutive (StyleOverride.ordered blocks key)).map (ofPair index key) :
      List (Nat × StyleOverride)) : Multiset (Nat × StyleOverride))
  count : overrides.length = ∑ key ∈ groups, ((declared blocks key).length - 1)
  between : ∀ override ∈ overrides, ∃ earlier ∈ sites blocks, ∃ later ∈ sites blocks,
    override.Between index earlier later

/-! ## Groups -/

theorem mem_sites {blocks : List (StyleRegion × Sheet)} {site : Site} :
    site ∈ sites blocks ↔ ∃ block ∈ blocks, site.region = block.1 ∧ site.rule ∈ block.2.rules ∧
      site.declaration ∈ site.rule.declarations := by
  simp only [sites, List.mem_flatMap, List.mem_map]
  constructor
  · rintro ⟨block, hblock, rule, hrule, declaration, hdeclaration, rfl⟩
    exact ⟨block, hblock, rfl, hrule, hdeclaration⟩
  · rintro ⟨block, hblock, hregion, hrule, hdeclaration⟩
    exact ⟨block, hblock, site.rule, hrule, site.declaration, hdeclaration, by rw [← hregion]⟩

/-- The occurrences of a declaration, one for each selector of its rule. -/
theorem occurrences_eq (blocks : List (StyleRegion × Sheet)) :
    occurrences blocks = (sites blocks).flatMap fun site =>
      site.rule.listed.map fun selector => (site.key selector, site.occurrence) := by
  simp only [occurrences, sites, Rule.listed, List.flatMap_assoc, List.flatMap_map,
    List.map_map]
  rfl

theorem map_filter_key (site : Site) (key : Key) :
    ((site.rule.listed.map fun selector => (site.key selector, site.occurrence)).filter
      (·.1 == key)).map (·.2) = List.replicate (site.multiplicity key) site.occurrence := by
  have hlength : (site.rule.listed.filter fun selector => site.key selector == key).length =
      site.multiplicity key := by
    rw [← List.countP_eq_length_filter, Site.multiplicity]
    split
    · rename_i hsame
      refine List.countP_congr fun selector _ => ?_
      rw [beq_iff_eq, beq_iff_eq, Site.key, hsame.1, hsame.2]
      exact ⟨congrArg Key.selector, fun h => h ▸ rfl⟩
    · rename_i hother
      refine List.countP_eq_zero.mpr fun selector _ h => hother ?_
      obtain rfl := eq_of_beq h
      exact ⟨rfl, rfl⟩
  rw [List.filter_map, List.map_map, ← hlength]
  exact List.map_const'

theorem map_filter_occurrences (blocks : List (StyleRegion × Sheet)) (key : Key) :
    ((occurrences blocks).filter (·.1 == key)).map (·.2) = declared blocks key := by
  rw [declared, occurrences_eq, List.filter_flatMap, List.map_flatMap]
  simp only [map_filter_key]

/-- The group of a key holds what is declared for it. -/
theorem group_occurrences (blocks : List (StyleRegion × Sheet)) (key : Key) :
    group (occurrences blocks) key = ordered blocks key := by
  rw [group, ordered, map_filter_occurrences]

theorem mem_declared {blocks : List (StyleRegion × Sheet)} {key : Key} {found : Occurrence} :
    found ∈ declared blocks key ↔ ∃ site ∈ sites blocks, site.rule.context = key.context ∧
      site.declaration.property = key.property ∧ key.selector ∈ site.rule.listed ∧
      found = site.occurrence := by
  rw [declared, List.mem_flatMap]
  refine exists_congr fun site => and_congr_right fun _ => ?_
  rw [List.mem_replicate, Site.multiplicity]
  split
  · rename_i hsame
    rw [ne_eq, List.count_eq_zero, not_not]
    exact ⟨fun h => ⟨hsame.1, hsame.2, h⟩, fun h => h.2.2⟩
  · rename_i hother
    exact ⟨fun h => absurd rfl h.1, fun h => absurd ⟨h.1, h.2.1⟩ hother⟩

theorem ofGroup_eq (index : LineIndex) (key : Key) (found : List Occurrence) :
    ofGroup index key found = (consecutive found).map (ofPair index key) := by
  rw [ofGroup, List.drop_one]
  rfl

theorem length_consecutive {α : Type} (l : List α) : (consecutive l).length = l.length - 1 := by
  rw [consecutive, List.length_zip, List.length_tail, Nat.min_eq_right (Nat.sub_le _ _)]

/-- The keys of the groups in which something is declared. -/
def keys (blocks : List (StyleRegion × Sheet)) : List Key :=
  ((occurrences blocks).map (·.1)).eraseDups

theorem mem_keys {blocks : List (StyleRegion × Sheet)} {key : Key} :
    key ∈ keys blocks ↔ declared blocks key ≠ [] := by
  rw [keys, List.mem_eraseDups, ← map_filter_occurrences, ne_eq, List.map_eq_nil_iff,
    List.filter_eq_nil_iff, List.mem_map]
  simp

/-- The overrides with their offsets, group by group. -/
theorem findAll_eq (index : LineIndex) (blocks : List (StyleRegion × Sheet)) :
    findAll index blocks = (((keys blocks).flatMap fun key =>
      (consecutive (ordered blocks key)).map (ofPair index key)).mergeSort le).map (·.2) := by
  simp only [findAll, keys, group_occurrences, ofGroup_eq]

/-- The overrides among some style elements are the consecutive pairs of their groups. -/
theorem mem_findAll_iff {index : LineIndex} {blocks : List (StyleRegion × Sheet)}
    {override : StyleOverride} :
    override ∈ findAll index blocks ↔
      ∃ key, ∃ pair ∈ consecutive (ordered blocks key), (ofPair index key pair).2 = override := by
  simp only [findAll_eq, List.mem_map, List.mem_mergeSort, List.mem_flatMap]
  constructor
  · rintro ⟨placed, ⟨key, -, pair, hpair, rfl⟩, heq⟩
    exact ⟨key, pair, hpair, heq⟩
  · rintro ⟨key, pair, hpair, heq⟩
    refine ⟨_, ⟨key, mem_keys.mpr ?_, pair, hpair, rfl⟩, heq⟩
    exact List.ne_nil_of_mem (List.mem_mergeSort.mp (List.of_mem_zip hpair).1)

theorem ordered_perm (blocks : List (StyleRegion × Sheet)) (key : Key) :
    (ordered blocks key).Perm (declared blocks key) :=
  List.mergeSort_perm _ _

theorem pairwise_ordered (blocks : List (StyleRegion × Sheet)) (key : Key) :
    (ordered blocks key).Pairwise fun a b => a.offset ≤ b.offset :=
  pairwise_mergeSort_key Occurrence.offset _

theorem ordered_of_pairwise {blocks : List (StyleRegion × Sheet)} {key : Key}
    (h : (declared blocks key).Pairwise fun a b => a.offset ≤ b.offset) :
    ordered blocks key = declared blocks key :=
  List.mergeSort_of_pairwise (h.imp decide_eq_true)

theorem rel_of_mem_consecutive {α : Type} {R : α → α → Prop} {l : List α} (h : l.Pairwise R)
    {pair : α × α} (hpair : pair ∈ consecutive l) : R pair.1 pair.2 := by
  induction l with
  | nil => cases hpair
  | cons a l ih =>
    obtain ⟨ha, hl⟩ := List.pairwise_cons.mp h
    cases l with
    | nil => cases hpair
    | cons b l =>
      rcases List.mem_cons.mp hpair with rfl | hpair
      · exact ha b List.mem_cons_self
      · exact ih hl hpair

theorem mem_ordered {blocks : List (StyleRegion × Sheet)} {key : Key} {found : Occurrence} :
    found ∈ ordered blocks key ↔ ∃ site ∈ sites blocks, site.rule.context = key.context ∧
      site.declaration.property = key.property ∧ key.selector ∈ site.rule.listed ∧
      found = site.occurrence := by
  rw [ordered, List.mem_mergeSort, mem_declared]

/-- Declarations of different groups never meet. -/
theorem exists_between {index : LineIndex} {blocks : List (StyleRegion × Sheet)}
    {override : StyleOverride} (h : override ∈ findAll index blocks) :
    ∃ earlier ∈ sites blocks, ∃ later ∈ sites blocks, override.Between index earlier later := by
  obtain ⟨key, ⟨previous, current⟩, hpair, rfl⟩ := mem_findAll_iff.mp h
  obtain ⟨hprevious, hcurrent⟩ := List.of_mem_zip hpair
  obtain ⟨earlier, hearlier, hcontext, hproperty, hselector, rfl⟩ := mem_ordered.mp hprevious
  obtain ⟨later, hlater, hcontext', hproperty', hselector', rfl⟩ :=
    mem_ordered.mp (List.mem_of_mem_tail hcurrent)
  exact ⟨earlier, hearlier, later, hlater, hcontext.trans hcontext'.symm, ⟨hselector, hselector'⟩,
    ⟨hproperty, hproperty'⟩, rfl, rfl⟩

theorem coe_flatMap_eq_sum {α β : Type} (l : List α) (f : α → List β) :
    ((l.flatMap f : List β) : Multiset β) = (l.map fun a => (f a : Multiset β)).sum := by
  induction l with
  | nil => rfl
  | cons a l ih =>
    rw [List.flatMap_cons, List.map_cons, List.sum_cons, ← ih]
    rfl

/-- Overrides are what the groups say, each found once and in the order of the file; and what stands in
a block that is skipped is in no sheet, so that no group holds it. -/
theorem findAll_exact (index : LineIndex) (blocks : List (StyleRegion × Sheet)) :
    (∃ groups placed, FoundIn index blocks groups placed (findAll index blocks)) ∧
      ∀ text, Sheet.PassesOver text := by
  refine ⟨?_, Sheet.passesOver⟩
  have honce : (keys blocks).Nodup := nodup_eraseDups _
  refine ⟨⟨keys blocks, honce⟩, _, ⟨fun key => mem_keys, findAll_eq index blocks, ?_, ?_, ?_, ?_⟩⟩
  · exact pairwise_mergeSort_named Prod.fst (fun placed : Nat × StyleOverride => placed.2.selector) _
  · rw [Multiset.coe_eq_coe.mpr (List.mergeSort_perm _ _), coe_flatMap_eq_sum]
    rfl
  · rw [findAll_eq, List.length_map, List.length_mergeSort, List.length_flatMap]
    simp only [List.length_map, length_consecutive, ordered, List.length_mergeSort]
    rfl
  · intro override h
    exact exists_between h

end StyleOverride

end ComponentAudit
