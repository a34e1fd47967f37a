import ComponentAudit.Proofs.Style.Concatenation
import ComponentAudit.Proofs.Style.Grouping
import Mathlib.Data.Set.Basic

/-! # Marks and the order of rules

A selector counts as used without a search if its first occurrence does; merging drops what later
occurrences say. Behind a complete block the rules of a style text declare the same selectors as
without it, with the same marks. So of two blocks the first one decides for the texts that both
declare, and the order matters exactly if they differ on one of those
(`autoUsed_append_comm_iff`). -/

namespace ComponentAudit

namespace StyleSelector

/-! ## Marks -/

/-- The text of a selector, and whether the selector carries a use. -/
def marking (selector : StyleSelector) : Text × Bool :=
  (selector.selectorText, !selector.htmlUsages.isEmpty)

/-- What the rules of a sheet declare, each selector with its mark. -/
def markings (index : LineIndex) (region : StyleRegion) (sheet : Sheet) : List (Text × Bool) :=
  (sheet.rules.flatMap (ofRule index region sheet)).map marking

/-- The texts of the entries of a style element. -/
def declared (index : LineIndex) (region : StyleRegion) (source : Text) : Set Text :=
  {text | ∃ entry ∈ ofSheet index region (Sheet.ofText source), entry.selectorText = text}

/-- The texts of the entries of a style element that carry a use before any search. -/
def autoUsed (index : LineIndex) (region : StyleRegion) (source : Text) : Set Text :=
  {text | ∃ entry ∈ ofSheet index region (Sheet.ofText source),
    entry.selectorText = text ∧ entry.htmlUsages ≠ []}

section Marks

variable {index : LineIndex} {region : StyleRegion} {source text : Text}

theorem lookup_marking (occurrences : List StyleSelector) (text : Text) :
    (occurrences.map marking).lookup text =
      (occurrences.find? (hasText text)).map fun selector => !selector.htmlUsages.isEmpty := by
  induction occurrences with
  | nil => rfl
  | cons selector occurrences ih =>
    rw [List.map_cons, List.find?_cons, marking, List.lookup_cons, hasText, BEq.comm]
    cases selector.selectorText == text with
    | true => rfl
    | false => exact ih

/-- An entry has the mark of the first selector of its text that the rules declare. -/
theorem lookup_markings {marked : Bool} :
    (markings index region (Sheet.ofText source)).lookup text = some marked ↔
      ∃ entry ∈ ofSheet index region (Sheet.ofText source), entry.marking = (text, marked) := by
  have hgrouped : Grouped _ (ofSheet index region (Sheet.ofText source)) := grouped_foldl_merge _
  have hsame : ∀ entry ∈ ofSheet index region (Sheet.ofText source),
      (markings index region (Sheet.ofText source)).lookup entry.selectorText =
        some entry.marking.2 := by
    intro entry hentry
    obtain ⟨first, hfirst, heq⟩ := hgrouped.entry entry hentry
    have husages : entry.htmlUsages = first.htmlUsages := congrArg (·.htmlUsages) heq
    rw [markings, lookup_marking, hfirst, Option.map_some, marking, husages]
  constructor
  · intro hlookup
    have hlisted := hlookup
    rw [markings, lookup_marking] at hlisted
    obtain ⟨first, hfirst, -⟩ := Option.map_eq_some_iff.mp hlisted
    have hmem := (mem_texts hgrouped).mpr (List.mem_map_of_mem (List.mem_of_find?_eq_some hfirst))
    obtain ⟨entry, hentry, heq⟩ := List.mem_map.mp hmem
    have htext : entry.selectorText = text := heq.trans (hasText_iff.mp (List.find?_some hfirst))
    have hmarked := hsame entry hentry
    rw [htext, hlookup] at hmarked
    exact ⟨entry, hentry, Prod.ext htext (Option.some.inj hmarked).symm⟩
  · rintro ⟨entry, hentry, heq⟩
    obtain ⟨rfl, rfl⟩ := Prod.mk.inj heq
    exact hsame entry hentry

theorem mem_declared : text ∈ declared index region source ↔
    ∃ marked, (markings index region (Sheet.ofText source)).lookup text = some marked := by
  simp only [lookup_markings]
  constructor
  · rintro ⟨entry, hentry, rfl⟩
    exact ⟨_, entry, hentry, rfl⟩
  · rintro ⟨marked, entry, hentry, heq⟩
    exact ⟨entry, hentry, congrArg Prod.fst heq⟩

theorem mem_autoUsed : text ∈ autoUsed index region source ↔
    (markings index region (Sheet.ofText source)).lookup text = some true := by
  have hused : ∀ entry : StyleSelector, entry.htmlUsages ≠ [] ↔ (!entry.htmlUsages.isEmpty) = true := by
    intro entry
    rw [Bool.not_eq_true', List.isEmpty_eq_false_iff]
  simp only [lookup_markings, marking, Prod.mk.injEq, ← hused]
  rfl

end Marks

/-! ## The selectors of a rule -/

section Relocated

variable (index other : LineIndex) (region elsewhere : StyleRegion) {sheet later : Sheet}
  {rule moved : Rule} {distance : Nat}

/-- The mark of a part depends on the rules around it only by whether one of them is a `:global`
rule. -/
theorem marking_ofPart? (hunder : underGlobal later moved = underGlobal sheet rule) (part : Text)
    (relative further : Nat) :
    (ofPart? other elsewhere later moved part further).map marking =
      (ofPart? index region sheet rule part relative).map marking := by
  have hmoved := ofPart?_eq other elsewhere later ⟨moved, part, further⟩
  have hrule := ofPart?_eq index region sheet ⟨rule, part, relative⟩
  have haccepted : Member.isAccepted ⟨moved, part, further⟩ = Member.isAccepted ⟨rule, part, relative⟩ :=
    rfl
  have huse : Member.autoUse? later ⟨moved, part, further⟩ (Selector.classify (Text.squeeze part)) =
      Member.autoUse? sheet ⟨rule, part, relative⟩ (Selector.classify (Text.squeeze part)) := by
    rw [Member.autoUse?, Member.autoUse?, hunder]
  dsimp only [Member.text] at hmoved hrule
  rw [hmoved, hrule, haccepted]
  split
  · rw [Option.map_some, Option.map_some, marking, marking, Member.entry, Member.entry, huse]
    cases Member.autoUse? sheet ⟨rule, part, relative⟩ (Selector.classify (Text.squeeze part)) <;> rfl
  · rfl

theorem marking_ofRule (hunder : underGlobal later moved = underGlobal sheet rule)
    (hcontext : moved.context = rule.context) (hlist : moved.selectorList = rule.selectorList) :
    (ofRule other elsewhere later moved).map marking = (ofRule index region sheet rule).map marking := by
  rw [ofRule, ofRule, hcontext, hlist]
  split
  · rfl
  · rw [List.map_filterMap, List.map_filterMap]
    exact List.filterMap_congr fun piece _ => marking_ofPart? index other region elsewhere hunder _ _ _

theorem ancestors_followedBy (henclosing : ∀ parent ∈ rule.enclosing, parent < sheet.rules.length) :
    (sheet.followedBy distance later).ancestors rule = sheet.ancestors rule := by
  unfold Sheet.ancestors
  refine List.filterMap_congr fun parent hparent => ?_
  exact List.getElem?_append_left (henclosing parent hparent)

theorem ancestors_relocate (rule : Rule) :
    (sheet.followedBy distance later).ancestors (rule.relocate distance sheet.rules.length) =
      (later.ancestors rule).map (Rule.relocate distance sheet.rules.length) := by
  unfold Sheet.ancestors
  rw [Rule.relocate, List.filterMap_map, List.map_filterMap]
  refine List.filterMap_congr fun parent _ => ?_
  change (sheet.followedBy distance later).rules[parent + sheet.rules.length]? = _
  rw [Sheet.followedBy, List.getElem?_append_right (Nat.le_add_left _ _), Nat.add_sub_cancel,
    List.getElem?_map]

/-- What a sheet and the one behind it declare, each selector with its mark: no rule of the one is
around a rule of the other. -/
theorem markings_followedBy (hclosed : ∀ rule ∈ sheet.rules, ∀ parent ∈ rule.enclosing,
    parent < sheet.rules.length) :
    markings other elsewhere (sheet.followedBy distance later) =
      markings index region sheet ++ markings index region later := by
  simp only [markings, List.map_flatMap]
  change (sheet.rules ++ later.rules.map _).flatMap _ = _
  rw [List.flatMap_append, List.flatMap_map]
  congr 1
  · refine List.flatMap_congr fun rule hrule => ?_
    refine marking_ofRule index other region elsewhere ?_ rfl rfl
    rw [underGlobal, underGlobal, ancestors_followedBy (hclosed rule hrule)]
  · refine List.flatMap_congr fun rule _ => ?_
    refine marking_ofRule index other region elsewhere ?_ rfl rfl
    rw [underGlobal, underGlobal, ancestors_relocate, List.any_map]
    rfl

end Relocated

/-! ## Two blocks -/

/-- A text that is one complete block. -/
def Complete (text : Text) : Prop :=
  ∃ header inside trail, Sheet.CompleteBlock text header inside trail

/-- The rules around a rule of a style text are rules of the text. -/
theorem enclosing_lt {source : Text} : ∀ rule ∈ (Sheet.ofText source).rules,
    ∀ parent ∈ rule.enclosing, parent < (Sheet.ofText source).rules.length := by
  intro rule hrule parent hparent
  obtain ⟨place, hplace⟩ := Sheet.exists_at_of_mem hrule
  have hbefore := ((Sheet.ofText_nested source).chained place rule hplace).2 parent hparent
  exact Nat.lt_trans hbefore hplace.lt

/-- Behind a complete block a text declares what it declares alone, with the same marks. -/
theorem markings_append {first second : Text} (index other : LineIndex) (region elsewhere : StyleRegion)
    (hfirst : Complete first) (hsecond : Complete second) :
    markings other elsewhere (Sheet.ofText (first ++ second)) =
      markings index region (Sheet.ofText first) ++ markings index region (Sheet.ofText second) := by
  obtain ⟨_, _, _, hblock⟩ := hfirst
  obtain ⟨_, _, _, hlater⟩ := hsecond
  rw [hblock.ofText_append hlater.uncommented]
  exact markings_followedBy index other region elsewhere enclosing_lt

/-- Where a look-up in two lists finds a mark, the first list goes first. -/
theorem or_eq_true_iff (a b : Option Bool) :
    a.or b = some true ↔ a = some true ∨ b = some true ∧ ¬ ∃ marked, a = some marked := by
  cases a with
  | none => simp
  | some marked => simp

/-- Two lists can change places if they do not differ where both have a mark. -/
theorem or_comm_iff (a b : Option Bool) :
    (a.or b = some true ↔ b.or a = some true) ↔
      ((∃ marked, a = some marked) → (∃ marked, b = some marked) →
        (a = some true ↔ b = some true)) := by
  cases a with
  | none => simp
  | some marked =>
    cases b with
    | none => simp
    | some other => simp

/-- Of two complete blocks the first one decides for the texts that it declares. Hence the order of the
blocks does not matter for the texts that carry a use exactly if every text that both declare carries
one in both or in neither. -/
theorem autoUsed_append {first second : Text} (hfirst : Complete first) (hsecond : Complete second)
    (index other : LineIndex) (region elsewhere : StyleRegion) :
    autoUsed index region (first ++ second) =
        autoUsed index region first ∪
          (autoUsed index region second \ declared index region first) ∧
      (autoUsed index region (first ++ second) = autoUsed other elsewhere (second ++ first) ↔
        ∀ text ∈ declared index region first, text ∈ declared index region second →
          (text ∈ autoUsed index region first ↔ text ∈ autoUsed index region second)) := by
  have hforward := markings_append index index region region hfirst hsecond
  have hbackward := markings_append index other region elsewhere hsecond hfirst
  constructor
  · ext text
    rw [Set.mem_union, Set.mem_sdiff, mem_autoUsed, mem_autoUsed, mem_autoUsed, mem_declared, hforward,
      List.lookup_append]
    exact or_eq_true_iff _ _
  · rw [Set.ext_iff]
    refine forall_congr' fun text => ?_
    rw [mem_autoUsed, mem_autoUsed, mem_autoUsed, mem_autoUsed, mem_declared, mem_declared, hforward,
      hbackward, List.lookup_append, List.lookup_append]
    exact or_comm_iff _ _

/-- A text that both blocks declare, and that carries a use in both, carries one in either order. -/
theorem autoUsed_append_nested :
    Complete ":global(.b)\x7b.a\x7b\x7d\x7d" ∧ Complete ":global(.c)\x7b.a\x7b\x7d\x7d" ∧
    autoUsed (LineIndex.ofText "<style>:global(.b)\x7b.a\x7b\x7d\x7d:global(.c)\x7b.a\x7b\x7d\x7d</style>")
        ⟨⟨0, 7, 41, 49⟩, 0, "css", true, [], none, none⟩
        (":global(.b)\x7b.a\x7b\x7d\x7d" ++ ":global(.c)\x7b.a\x7b\x7d\x7d") =
      autoUsed (LineIndex.ofText "<style>:global(.c)\x7b.a\x7b\x7d\x7d:global(.b)\x7b.a\x7b\x7d\x7d</style>")
        ⟨⟨0, 7, 41, 49⟩, 0, "css", true, [], none, none⟩
        (":global(.c)\x7b.a\x7b\x7d\x7d" ++ ":global(.b)\x7b.a\x7b\x7d\x7d") := by
  have hfirst : Complete ":global(.b)\x7b.a\x7b\x7d\x7d" :=
    ⟨":global(.b)", ".a\x7b\x7d", [], by decide +kernel⟩
  have hsecond : Complete ":global(.c)\x7b.a\x7b\x7d\x7d" :=
    ⟨":global(.c)", ".a\x7b\x7d", [], by decide +kernel⟩
  refine ⟨hfirst, hsecond, ((autoUsed_append hfirst hsecond _ _ _ _).2).mpr ?_⟩
  rintro text ⟨entry, hentry, rfl⟩ ⟨other, hother, heq⟩
  rw [mem_autoUsed, mem_autoUsed]
  revert entry other
  decide +kernel

/-- The mark of a rule under a `:global` rule is lost behind a rule with the same selector. -/
theorem autoUsed_lost :
    Complete ".a\x7b\x7d" ∧ Complete ":global(.b)\x7b.a\x7b\x7d\x7d" ∧
    (".a" : Text) ∉ autoUsed (LineIndex.ofText "<style>.a\x7b\x7d:global(.b)\x7b.a\x7b\x7d\x7d</style>")
      ⟨⟨0, 7, 28, 36⟩, 0, "css", true, [], none, none⟩
      (".a\x7b\x7d" ++ ":global(.b)\x7b.a\x7b\x7d\x7d") ∧
    (".a" : Text) ∈ autoUsed (LineIndex.ofText "<style>:global(.b)\x7b.a\x7b\x7d\x7d.a\x7b\x7d</style>")
      ⟨⟨0, 7, 28, 36⟩, 0, "css", true, [], none, none⟩
      (":global(.b)\x7b.a\x7b\x7d\x7d" ++ ".a\x7b\x7d") := by
  refine ⟨⟨".a", [], [], by decide +kernel⟩, ⟨":global(.b)", ".a\x7b\x7d", [], by decide +kernel⟩, ?_, ?_⟩
  · rw [mem_autoUsed]
    decide +kernel
  · rw [mem_autoUsed]
    decide +kernel

end StyleSelector

end ComponentAudit
