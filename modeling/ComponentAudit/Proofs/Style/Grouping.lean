import ComponentAudit.Proofs.Style.Catalog
import ComponentAudit.Proofs.Style.Classification
import ComponentAudit.Proofs.Style.Outline
import Mathlib.Data.List.Basic
import Mathlib.Data.List.Induction

/-! # The selectors of a style element are grouped by their texts

Each part of a rule's list is an occurrence of a selector, unless its text refers to a parent, is a
bare `:global` or shows no name. Merging keeps the first occurrence of each text and adds the
properties of the later ones (`grouped_merge`), so the entries of a style element are the groups of
its occurrences. The text of a part is squeezed, so it can always be classified, and reading the
selectors of a style element never fails (`extraction_grouped`). -/

namespace ComponentAudit

namespace StyleSelector

/-! ## Groups -/

/-- Whether a selector has a text. -/
def hasText (text : Text) (selector : StyleSelector) : Bool := selector.selectorText == text

@[simp] theorem hasText_iff {text : Text} {selector : StyleSelector} :
    hasText text selector = true ↔ selector.selectorText = text :=
  beq_iff_eq

/-- The properties of all occurrences of a text. -/
def propertiesOf (occurrences : List StyleSelector) (text : Text) : List Text :=
  (occurrences.filter (hasText text)).flatMap (·.properties)

/-- The entries are the groups of some occurrences: one for each text, in the order in which the texts
occur first. An entry is the first occurrence of its text, but for the properties: those are the
properties of all occurrences of the text, one behind the other. -/
structure Grouped (occurrences entries : List StyleSelector) : Prop where
  texts : entries.map (·.selectorText) = (occurrences.map (·.selectorText)).eraseDups
  entry : ∀ entry ∈ entries, ∃ first,
    occurrences.find? (hasText entry.selectorText) = some first ∧
      entry = { first with properties := propertiesOf occurrences entry.selectorText }

section Merge

variable {occurrences entries : List StyleSelector} {selector : StyleSelector} {text : Text}

theorem propertiesOf_append (occurrences : List StyleSelector) (selector : StyleSelector)
    (text : Text) : propertiesOf (occurrences ++ [selector]) text =
      propertiesOf occurrences text ++ if selector.selectorText = text then selector.properties else [] := by
  rw [propertiesOf, List.filter_append, List.flatMap_append, List.filter_cons, List.filter_nil]
  congr 1
  by_cases h : selector.selectorText = text
  · rw [if_pos h, if_pos (hasText_iff.mpr h), List.flatMap_singleton]
  · rw [if_neg h, if_neg (mt hasText_iff.mp h), List.flatMap_nil]

theorem mem_texts (h : Grouped occurrences entries) :
    text ∈ entries.map (·.selectorText) ↔ text ∈ occurrences.map (·.selectorText) := by
  rw [h.texts, List.mem_eraseDups]

/-- Behind some others, only a text that is not among them is kept. -/
theorem eraseDups_concat (texts : List Text) (text : Text) :
    (texts ++ [text]).eraseDups = texts.eraseDups ++ if text ∈ texts then [] else [text] := by
  rw [List.eraseDups_append, List.removeAll, List.filter_cons, List.filter_nil]
  by_cases h : text ∈ texts
  · rw [if_pos h, if_neg (by simpa using h), List.eraseDups_nil]
  · rw [if_neg h, if_pos (by simpa using h), List.eraseDups_cons, List.filter_nil, List.eraseDups_nil]

/-- The first occurrence of a text stays the first one. -/
theorem find?_append_of_some {first : StyleSelector}
    (h : occurrences.find? (hasText text) = some first) (selector : StyleSelector) :
    (occurrences ++ [selector]).find? (hasText text) = some first := by
  rw [List.find?_append, h, Option.some_or]

/-- An entry of another text stays the group of its text. -/
theorem Grouped.entry_other (h : Grouped occurrences entries) {entry : StyleSelector}
    (hentry : entry ∈ entries) (hother : entry.selectorText ≠ selector.selectorText) :
    ∃ first, (occurrences ++ [selector]).find? (hasText entry.selectorText) = some first ∧
      entry = { first with
        properties := propertiesOf (occurrences ++ [selector]) entry.selectorText } := by
  obtain ⟨first, hfirst, heq⟩ := h.entry entry hentry
  refine ⟨first, find?_append_of_some hfirst selector, ?_⟩
  rw [propertiesOf_append, if_neg (Ne.symm hother), List.append_nil]
  exact heq

/-- The entry of a text that occurs again gets the properties of that occurrence. -/
theorem Grouped.merge_known (h : Grouped occurrences entries)
    (hknown : selector.selectorText ∈ occurrences.map (·.selectorText)) :
    Grouped (occurrences ++ [selector]) (entries.map fun entry =>
      if entry.selectorText == selector.selectorText then
        { entry with properties := entry.properties ++ selector.properties }
      else entry) where
  texts := by
    rw [List.map_append, List.map_singleton, eraseDups_concat, if_pos hknown, List.append_nil,
      ← h.texts, List.map_map]
    refine List.map_congr_left fun entry _ => ?_
    dsimp only [Function.comp_apply]
    split <;> rfl
  entry := by
    intro added hadded
    obtain ⟨entry, hentry, rfl⟩ := List.mem_map.mp hadded
    by_cases hsame : entry.selectorText = selector.selectorText
    · obtain ⟨first, hfirst, heq⟩ := h.entry entry hentry
      have hproperties : entry.properties = propertiesOf occurrences entry.selectorText :=
        congrArg (·.properties) heq
      rw [if_pos (beq_iff_eq.mpr hsame)]
      refine ⟨first, find?_append_of_some hfirst selector, ?_⟩
      dsimp only
      rw [propertiesOf_append, if_pos hsame.symm, ← hproperties]
      exact congrArg (fun found : StyleSelector =>
        { found with properties := entry.properties ++ selector.properties }) heq
    · rw [if_neg (mt beq_iff_eq.mp hsame)]
      exact h.entry_other hentry hsame

/-- A text that did not occur before is a group of its own. -/
theorem Grouped.merge_new (h : Grouped occurrences entries)
    (hnew : selector.selectorText ∉ occurrences.map (·.selectorText)) :
    Grouped (occurrences ++ [selector]) (entries ++ [selector]) where
  texts := by
    rw [List.map_append, List.map_append, List.map_singleton, eraseDups_concat, if_neg hnew, h.texts]
  entry := by
    intro entry hentry
    rcases List.mem_append.mp hentry with hentry | hentry
    · refine h.entry_other hentry fun hsame => hnew ?_
      exact hsame ▸ (mem_texts h).mp (List.mem_map_of_mem hentry)
    · obtain rfl := List.mem_singleton.mp hentry
      have hnone : ∀ occurrence ∈ occurrences, ¬ hasText entry.selectorText occurrence = true :=
        fun occurrence hoccurrence htext =>
          hnew (hasText_iff.mp htext ▸ List.mem_map_of_mem hoccurrence)
      refine ⟨entry, ?_, ?_⟩
      · rw [List.find?_append, List.find?_eq_none.mpr hnone, Option.none_or, List.find?_singleton,
          if_pos (hasText_iff.mpr rfl)]
      · rw [propertiesOf_append, if_pos rfl, propertiesOf, List.filter_eq_nil_iff.mpr hnone]
        rfl

/-- Merging one more occurrence keeps the entries the groups of the occurrences. -/
theorem grouped_merge (h : Grouped occurrences entries) (selector : StyleSelector) :
    Grouped (occurrences ++ [selector]) (merge entries selector) := by
  have hany : entries.any (·.selectorText == selector.selectorText) = true ↔
      selector.selectorText ∈ occurrences.map (·.selectorText) := by
    rw [← mem_texts h, List.any_eq_true, List.mem_map]
    simp only [beq_iff_eq]
  unfold merge
  by_cases hknown : selector.selectorText ∈ occurrences.map (·.selectorText)
  · rw [if_pos (hany.mpr hknown)]
    exact h.merge_known hknown
  · rw [if_neg (mt hany.mp hknown)]
    exact h.merge_new hknown

/-- Merging some selectors one after the other groups them. -/
theorem grouped_foldl_merge (occurrences : List StyleSelector) :
    Grouped occurrences (occurrences.foldl merge []) := by
  induction occurrences using List.reverseRecOn with
  | nil => exact ⟨rfl, fun entry hentry => by cases hentry⟩
  | append_singleton occurrences selector ih =>
    rw [List.foldl_append, List.foldl_cons, List.foldl_nil]
    exact grouped_merge ih selector

end Merge

/-! ## The occurrences of a style text -/

/-- A part of the selector list of a rule. -/
structure Member where
  rule : Rule
  part : Text
  relative : Nat

namespace Member

/-- The text of the part, its white space squeezed. -/
def text (member : Member) : Text := Text.squeeze member.part

/-- Whether the part refers to its parent or is a bare `:global`. -/
def isReference (member : Member) : Bool := member.text.contains '&' || member.text == ":global"

/-- Whether the part declares a selector. -/
def isAccepted (member : Member) : Bool :=
  !member.isReference && !(Selector.classify member.text).name.isEmpty

/-- Why the selector of the part counts as used, if it does. -/
def autoUse? (sheet : Sheet) (member : Member) (found : Classified) : Option AutoUse :=
  found.autoUse.or (if underGlobal sheet member.rule then some .global else none)

variable (index : LineIndex) (region : StyleRegion) (sheet : Sheet)

/-- Where the part stands. -/
def position (member : Member) : Position :=
  index.position (region.span.bodyStart + member.rule.offset + member.relative)

/-- The selector that the part declares. -/
def entry (member : Member) (found : Classified) : StyleSelector where
  selectorText := member.text
  kind := found.kind
  name := found.name
  position := member.position index region
  sourceBlock := region.label
  properties := member.rule.declarations.map (·.property)
  htmlUsages := ((member.autoUse? sheet found).map (·.mark (member.position index region))).toList

/-- The entries with the selector of one more part, if the part declares one. This fails if the text
of the part has to be classified and cannot be. -/
def mergeInto? (entries : List StyleSelector) (member : Member) : Option (List StyleSelector) :=
  if member.isReference then some entries
  else (Selector.classify? member.text).map fun found =>
    if found.name.isEmpty then entries else merge entries (member.entry index region sheet found)

end Member

/-- The parts of a rule's selector list. -/
def membersOfRule (rule : Rule) : List Member :=
  (Selector.split rule.rawText).map fun (part, relative) => ⟨rule, part, relative⟩

/-- The parts of the selector lists of a style text that stand under no condition. -/
def membersOf (source : Text) : List Member :=
  ((Sheet.ofText source).rules.filter fun rule => (Sheet.conditionsOf source rule).isEmpty).flatMap
    membersOfRule

/-- The selectors of a style element, each classified as it is met. -/
def extract? (index : LineIndex) (region : StyleRegion) (source : Text) :
    Option (List StyleSelector) :=
  (membersOf source).foldlM (Member.mergeInto? index region (Sheet.ofText source)) []

/-- The selectors that the parts of a style text declare, one behind the other. -/
def occurrencesOf (index : LineIndex) (region : StyleRegion) (source : Text) : List StyleSelector :=
  ((membersOf source).filter (·.isAccepted)).map fun member =>
    member.entry index region (Sheet.ofText source) (Selector.classify member.text)

section Occurrences

variable {source : Text} {rule : Rule}

theorem ofPart?_eq (index : LineIndex) (region : StyleRegion) (sheet : Sheet) (member : Member) :
    ofPart? index region sheet member.rule member.part member.relative =
      if member.isAccepted then
        some (member.entry index region sheet (Selector.classify member.text)) else none := by
  have huse : (if (Selector.classify member.text).autoUse.isNone && underGlobal sheet member.rule
      then some AutoUse.global else (Selector.classify member.text).autoUse) =
      member.autoUse? sheet (Selector.classify member.text) := by
    unfold Member.autoUse?
    cases (Selector.classify member.text).autoUse with
    | none => rfl
    | some use => rfl
  have hreference : (member.text.contains '&' || member.text == ":global") = member.isReference := rfl
  unfold ofPart? Member.isAccepted
  dsimp only
  rw [← Member.text, huse, hreference]
  cases member.isReference with
  | true => rfl
  | false => cases (Selector.classify member.text).name.isEmpty <;> rfl

/-- A rule stands under no condition exactly if its nearest one is none. -/
theorem conditionsOf_isEmpty (h : rule ∈ (Sheet.ofText source).rules) :
    (Sheet.conditionsOf source rule).isEmpty = !(rule.context.head? == some '@') := by
  have hnearest := Sheet.head?_conditionsOf h
  cases hconditions : Sheet.conditionsOf source rule with
  | nil =>
    rw [hconditions, List.head?_nil] at hnearest
    split at hnearest
    · rename_i hcontext
      rw [hcontext]
      rfl
    · cases hnearest
  | cons title others =>
    have hannounced := Sheet.announcedBy_of_mem_conditionsOf (hconditions ▸ List.mem_cons_self)
    rw [hconditions, List.head?_cons] at hnearest
    split at hnearest
    · cases hnearest
    · obtain rfl := Option.some.inj hnearest
      have hat : rule.context.head? = some '@' := by
        by_contra hhead
        rw [(Sheet.announcedBy_of_head hhead).2] at hannounced
        cases hannounced
      rw [hat]
      rfl

/-- The selectors that a rule declares are those of its parts. -/
theorem ofRule_eq (index : LineIndex) (region : StyleRegion)
    (h : rule ∈ (Sheet.ofText source).rules) :
    ofRule index region (Sheet.ofText source) rule =
      if (Sheet.conditionsOf source rule).isEmpty then
        ((membersOfRule rule).filter (·.isAccepted)).map fun member =>
          member.entry index region (Sheet.ofText source) (Selector.classify member.text)
      else [] := by
  have htitled : rule.Titled := ((Sheet.ofText_structured source).selectors rule h).2
  rw [conditionsOf_isEmpty h, ofRule, htitled.selectorList_eq]
  cases rule.context.head? == some '@' with
  | true => rfl
  | false =>
    rw [if_neg Bool.false_ne_true, Bool.not_false, if_pos rfl, membersOfRule,
      ← List.filterMap_eq_map, List.filterMap_filter, List.filterMap_map]
    refine List.filterMap_congr fun piece _ => ?_
    exact ofPart?_eq index region _ ⟨rule, piece.1, piece.2⟩

theorem flatMap_filter {α β : Type} (p : α → Bool) (f : α → List β) (l : List α) :
    (l.filter p).flatMap f = l.flatMap fun a => if p a then f a else [] := by
  induction l with
  | nil => rfl
  | cons a l ih =>
    rw [List.filter_cons, List.flatMap_cons, ← ih]
    split
    · exact List.flatMap_cons
    · rfl

theorem flatMap_ofRule (index : LineIndex) (region : StyleRegion) (source : Text) :
    (Sheet.ofText source).rules.flatMap (ofRule index region (Sheet.ofText source)) =
      occurrencesOf index region source := by
  rw [occurrencesOf, membersOf, List.filter_flatMap, List.map_flatMap, flatMap_filter]
  exact List.flatMap_congr fun rule hrule => ofRule_eq index region hrule

/-- A squeezed text is empty or opens with a character that shows, so it can be classified. -/
theorem Member.classify?_text (member : Member) :
    Selector.classify? member.text = some (Selector.classify member.text) := by
  refine Selector.classify?_eq_some ?_
  cases htext : member.text with
  | nil => exact .inl rfl
  | cons c rest => exact .inr ⟨c, List.mem_cons_self, Text.head_squeeze htext⟩

theorem Member.mergeInto?_eq (index : LineIndex) (region : StyleRegion) (sheet : Sheet)
    (entries : List StyleSelector) (member : Member) :
    member.mergeInto? index region sheet entries =
      some (if member.isAccepted then
        merge entries (member.entry index region sheet (Selector.classify member.text))
      else entries) := by
  rw [mergeInto?, classify?_text, isAccepted, Option.map_some]
  cases member.isReference with
  | true => rfl
  | false => cases (Selector.classify member.text).name.isEmpty <;> rfl

end Occurrences

/-- Reading the selectors of a style element never fails: every part that is classified has a
classification. The entries are the groups of the selectors that are declared under no condition. -/
theorem extraction_grouped (index : LineIndex) (region : StyleRegion) (source : Text) :
    extract? index region source = some (ofSheet index region (Sheet.ofText source)) ∧
      Grouped (occurrencesOf index region source) (ofSheet index region (Sheet.ofText source)) := by
  rw [ofSheet, flatMap_ofRule]
  refine ⟨?_, grouped_foldl_merge _⟩
  have hstep := funext fun entries => funext fun member =>
    Member.mergeInto?_eq index region (Sheet.ofText source) entries member
  rw [extract?, occurrencesOf, List.foldl_map, List.foldl_filter, hstep]
  exact List.foldlM_pure

end StyleSelector

end ComponentAudit
