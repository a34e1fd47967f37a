import ComponentAudit.Style.Catalog

/-! # Where the entries of a style element come from

Merging selectors of one text only ever adds properties, so an entry is the first selector of its
text in all other respects. Hence it stands where one part of a rule's selector list stands, and the
only use it has before any search is the note that it counts as used. -/

namespace ComponentAudit

/-- The use that stands for a selector which counts as used without a search. -/
def AutoUse.mark (use : AutoUse) (position : Position) : Usage :=
  { position, context := use.context, attributeName := some use.label }

namespace StyleSelector

theorem mem_merge {found : List StyleSelector} {selector entry : StyleSelector}
    (h : entry ∈ merge found selector) :
    ∃ first, (first ∈ found ∨ first = selector) ∧
      entry = { first with properties := entry.properties } := by
  unfold merge at h
  split at h
  · obtain ⟨first, hfirst, rfl⟩ := List.mem_map.mp h
    refine ⟨first, .inl hfirst, ?_⟩
    split <;> rfl
  · rcases List.mem_append.mp h with h | h
    · exact ⟨entry, .inl h, rfl⟩
    · exact ⟨entry, .inr (List.mem_singleton.mp h), rfl⟩

theorem mem_foldl_merge {selectors found : List StyleSelector} {entry : StyleSelector}
    (h : entry ∈ selectors.foldl merge found) :
    ∃ first, (first ∈ found ∨ first ∈ selectors) ∧
      entry = { first with properties := entry.properties } := by
  induction selectors generalizing found with
  | nil => exact ⟨entry, .inl h, rfl⟩
  | cons selector selectors ih =>
    obtain ⟨later, hlater, heq⟩ := ih h
    rcases hlater with hlater | hlater
    · obtain ⟨first, hfirst, hsame⟩ := mem_merge hlater
      refine ⟨first, ?_, by rw [heq, hsame]⟩
      rcases hfirst with hfirst | rfl
      · exact .inl hfirst
      · exact .inr List.mem_cons_self
    · exact ⟨later, .inr (List.mem_cons_of_mem selector hlater), heq⟩

/-- What a part of a selector list says of the entry that it declares. -/
structure DeclaredBy (index : LineIndex) (region : StyleRegion) (rule : Rule) (part : Text)
    (relative : Nat) (entry : StyleSelector) : Prop where
  text : entry.selectorText = Text.squeeze part
  position : entry.position = index.position (region.span.bodyStart + rule.offset + relative)
  marked : ∃ autoUse : Option AutoUse,
    entry.htmlUsages = (autoUse.map (·.mark entry.position)).toList

theorem ofPart?_declaredBy {index : LineIndex} {region : StyleRegion} {sheet : Sheet} {rule : Rule}
    {part : Text} {relative : Nat} {entry : StyleSelector}
    (h : ofPart? index region sheet rule part relative = some entry) :
    DeclaredBy index region rule part relative entry := by
  unfold ofPart? at h
  simp only at h
  split at h
  · cases h
  · split at h
    · cases h
    · obtain rfl := Option.some.inj h
      exact ⟨rfl, rfl, _, rfl⟩

/-- Every entry of a style element is declared by a part of the selector list of one of its rules. -/
theorem ofSheet_declaredBy {index : LineIndex} {region : StyleRegion} {sheet : Sheet}
    {entry : StyleSelector} (h : entry ∈ ofSheet index region sheet) :
    ∃ rule ∈ sheet.rules, ∃ part relative, (part, relative) ∈ Selector.split rule.selectorList ∧
      DeclaredBy index region rule part relative entry := by
  obtain ⟨first, hfirst, heq⟩ := mem_foldl_merge h
  rcases hfirst with hfirst | hfirst
  · cases hfirst
  · obtain ⟨rule, hrule, hin⟩ := List.mem_flatMap.mp hfirst
    unfold ofRule at hin
    split at hin
    · cases hin
    · obtain ⟨⟨part, relative⟩, hpart, hdeclared⟩ := List.mem_filterMap.mp hin
      obtain ⟨htext, hposition, hmarked⟩ := ofPart?_declaredBy hdeclared
      refine ⟨rule, hrule, part, relative, hpart, ?_⟩
      rw [heq]
      exact ⟨htext, hposition, hmarked⟩

end StyleSelector

end ComponentAudit
