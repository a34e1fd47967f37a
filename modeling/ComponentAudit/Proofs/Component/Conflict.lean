import ComponentAudit.Proofs.Component.Location
import ComponentAudit.Proofs.Component.Overlap
import ComponentAudit.Proofs.Style.Group
import ComponentAudit.Proofs.Text.Line

/-! # Declarations in conflict

Every declaration of a file starts at an offset of its own, so the two positions of an override tell
which declarations it is about. Both list its selector and have its property, and the nearest condition
around them is the same. They are one declaration if its rule lists the selector more than once. -/

namespace ComponentAudit

open Analysis

theorem Position.not_before_self (position : Position) : ¬ position.Before position := by
  rintro (hline | ⟨-, hcolumn⟩)
  · exact Nat.lt_irrefl _ hline
  · exact Nat.lt_irrefl _ hcolumn

namespace StyleOverride

/-! ## Declarations of a file -/

section Sites

variable {source : Text} {site : Site}

theorem mem_sites_blocksOf : site ∈ sites (blocksOf source) ↔ site.region ∈ stylesOf source ∧
    site.rule ∈ (Sheet.ofText (site.region.span.body source)).rules ∧
    site.declaration ∈ site.rule.declarations := by
  rw [mem_sites, blocksOf, ← List.map_prod_left_eq_zip]
  constructor
  · rintro ⟨block, hblock, hregion, hrule, hdeclaration⟩
    obtain ⟨region, hmem, rfl⟩ := List.mem_map.mp hblock
    rw [hregion]
    exact ⟨hmem, hrule, hdeclaration⟩
  · rintro ⟨hmem, hrule, hdeclaration⟩
    exact ⟨_, List.mem_map_of_mem hmem, rfl, hrule, hdeclaration⟩

/-- A declaration stands in the body of its style element. -/
theorem offset_within (region : StyleRegion) {offset : Nat}
    (h : offset ∈ (Sheet.ofText (region.span.body source)).declaredOffsets) :
    region.span.bodyStart + offset < region.span.bodyEnd ∧
      region.span.bodyStart + offset < source.length := by
  obtain ⟨added, hadded, hperm⟩ := Sheet.exists_added_ofText (region.span.body source)
  have hlt := (hadded.inside offset (hperm.subset h)).2
  rw [(Comment.maskOf_maskStyle _).length_eq, ElementSpan.body, Text.slice, List.length_take,
    List.length_drop] at hlt
  omega

theorem Site.offset_lt_length (h : site ∈ sites (blocksOf source)) : site.offset < source.length := by
  obtain ⟨-, hrule, hdeclaration⟩ := mem_sites_blocksOf.mp h
  refine (offset_within site.region ?_).2
  exact List.mem_flatMap.mpr ⟨site.rule, hrule, List.mem_map_of_mem hdeclaration⟩

/-- Style elements stand one behind the other. -/
theorem pairwise_stylesOf (source : Text) :
    (stylesOf source).Pairwise fun a b => a.span.bodyEnd ≤ b.span.bodyStart := by
  obtain ⟨hordered, hpairs⟩ := elementsFrom_ordered "style" 0 0 source
  have hspans : (stylesOf source).map (·.span) = (Regions.ofText source).styles.map (·.span) := by
    rw [stylesOf, List.map_map]
    rfl
  rw [← List.pairwise_map (f := StyleRegion.span) (R := fun a b => a.bodyEnd ≤ b.bodyStart)]
  rw [hspans, Regions.styles_span]
  refine List.Pairwise.filter _ (hpairs.imp_of_mem ?_)
  intro a b ha hb hle
  have hclose := (hordered a ha).1.close
  have htag := (hordered b hb).1.tag
  omega

theorem map_offset_sites (blocks : List (StyleRegion × Sheet)) :
    (sites blocks).map Site.offset = blocks.flatMap fun (region, sheet) =>
      sheet.declaredOffsets.map (region.span.bodyStart + ·) := by
  simp only [sites, Sheet.declaredOffsets, List.map_flatMap, List.map_map]
  rfl

/-- No two declarations of a file start at the same offset. -/
theorem nodup_offsets (source : Text) : ((sites (blocksOf source)).map Site.offset).Nodup := by
  rw [map_offset_sites, blocksOf, ← List.map_prod_left_eq_zip, List.flatMap_map, List.Nodup,
    List.pairwise_flatMap]
  constructor
  · intro region _
    exact (Sheet.nodup_declaredOffsets _).map fun _ _ h => Nat.add_left_cancel h
  · refine (pairwise_stylesOf source).imp ?_
    intro a b hle x hx y hy
    obtain ⟨offset, hoffset, rfl⟩ := List.mem_map.mp hx
    obtain ⟨other, -, rfl⟩ := List.mem_map.mp hy
    have hlt := (offset_within a hoffset).1
    omega

theorem Site.eq_of_positionAt {other : Site} (h : site ∈ sites (blocksOf source))
    (hother : other ∈ sites (blocksOf source))
    (hsame : source.positionAt site.offset = source.positionAt other.offset) : site = other := by
  have hoffset := Text.positionAt_inj (Nat.le_of_lt (offset_lt_length h))
    (Nat.le_of_lt (offset_lt_length hother)) hsame
  exact List.inj_on_of_nodup_map (nodup_offsets source) h hother hoffset

end Sites

/-- The overrides of a file are those among its style elements. -/
theorem overrides_analyze (source path : Text) (options : Options) :
    (analyze source path options).overrides =
      findAll (LineIndex.ofText source) (blocksOf source) := by
  have hstyles : (declaredIn source path options).styles = stylesOf source := rfl
  have hsettled : (analyze source path options).overrides =
      ((declaredIn source path options).withOverrides (documentOf source path options)).overrides :=
    overrides_settle _ _ Pass.all
  rw [hsettled, withOverrides, hstyles]
  split
  · rename_i hnone
    rw [blocksOf, List.isEmpty_iff.mp hnone, findAll, List.zip_nil_left]
    exact List.mergeSort_nil.symm ▸ rfl
  · rfl

/-- If the declarations of a group come in the order of the file, each overrides the one before. -/
theorem mem_overrides_of_pair {source path : Text} {options : Options} {key : Key}
    {pair : Occurrence × Occurrence}
    (hsorted : (declared (blocksOf source) key).Pairwise fun a b => a.offset ≤ b.offset)
    (hpair : pair ∈ consecutive (declared (blocksOf source) key)) :
    (ofPair (LineIndex.ofText source) key pair).2 ∈ (analyze source path options).overrides := by
  rw [overrides_analyze]
  exact mem_findAll_iff.mpr ⟨key, pair, ordered_of_pairwise hsorted ▸ hpair, rfl⟩

/-! ## Members of a group at one offset -/

/-- The declarations of a group that start at an offset are the repetitions of one. -/
theorem countP_declared {source : Text} {site : Site} (h : site ∈ sites (blocksOf source)) (key : Key) :
    (declared (blocksOf source) key).countP (·.offset == site.offset) = site.multiplicity key := by
  obtain ⟨before, behind, hsplit⟩ := List.append_of_mem h
  have honce := nodup_offsets source
  rw [hsplit, List.map_append, List.map_cons, List.nodup_middle, List.nodup_cons,
    List.mem_append, not_or] at honce
  have hzero : ∀ others : List Site, site.offset ∉ others.map Site.offset →
      (others.flatMap fun other => List.replicate (other.multiplicity key) other.occurrence).countP
        (·.offset == site.offset) = 0 := by
    intro others hnone
    refine List.countP_eq_zero.mpr ?_
    intro found hfound hsame
    obtain ⟨other, hother, hmember⟩ := List.mem_flatMap.mp hfound
    rw [List.eq_of_mem_replicate hmember] at hsame
    exact hnone (eq_of_beq hsame ▸ List.mem_map_of_mem hother)
  have hself : (site.occurrence.offset == site.offset) = true := beq_self_eq_true _
  rw [declared, hsplit, List.flatMap_append, List.flatMap_cons, List.countP_append,
    List.countP_append, List.countP_replicate, hzero before honce.1.1, hzero behind honce.1.2,
    if_pos hself, Nat.zero_add, Nat.add_zero]

/-- In a sorted list, the members of one key follow one another. -/
theorem exists_consecutive_iff {α : Type} {key : α → Nat} {place : Nat} {l : List α}
    (h : l.Pairwise fun a b => key a ≤ key b) :
    (∃ pair ∈ consecutive l, key pair.1 = place ∧ key pair.2 = place) ↔
      2 ≤ l.countP (key · == place) := by
  induction l with
  | nil => simp [consecutive]
  | cons a l ih =>
    obtain ⟨ha, hl⟩ := List.pairwise_cons.mp h
    cases l with
    | nil =>
      have hle := List.countP_le_length (p := (key · == place)) (l := [a])
      rw [List.length_singleton] at hle
      constructor
      · rintro ⟨pair, hpair, -⟩
        exact absurd hpair List.not_mem_nil
      · intro htwo
        omega
    | cons b l =>
      have hpairs : consecutive (a :: b :: l) = (a, b) :: consecutive (b :: l) := rfl
      simp only [hpairs, List.exists_mem_cons_iff, ih hl]
      have hcount := List.countP_cons (p := (key · == place)) (a := a) (l := b :: l)
      simp only [beq_iff_eq] at hcount
      by_cases hfirst : key a = place
      · rw [if_pos hfirst] at hcount
        by_cases hnext : key b = place
        · have hpos : 0 < (b :: l).countP (key · == place) :=
            List.countP_pos_iff.mpr ⟨b, List.mem_cons_self, beq_iff_eq.mpr hnext⟩
          exact iff_of_true (.inl ⟨hfirst, hnext⟩) (by omega)
        · -- all that comes later has a larger key
          have hnone : (b :: l).countP (key · == place) = 0 := by
            refine List.countP_eq_zero.mpr ?_
            intro c hc hsame
            have hlater : key b ≤ key c := by
              rcases List.mem_cons.mp hc with rfl | hc
              · exact Nat.le_refl _
              · exact (List.pairwise_cons.mp hl).1 c hc
            have hbehind := ha b List.mem_cons_self
            rw [beq_iff_eq] at hsame
            omega
          omega
      · rw [if_neg hfirst] at hcount
        omega

/-- A declaration overrides itself exactly if its rule lists a selector more than once. -/
theorem overrides_itself_iff (source path : Text) (options : Options) (selector property : Text)
    (position : Position) :
    (∃ override ∈ (analyze source path options).overrides, override.selector = selector ∧
        override.property = property ∧ override.position = position ∧
        ¬ override.previous.Before override.position) ↔
      ∃ site ∈ sites (blocksOf source), site.declaration.property = property ∧
        source.positionAt site.offset = position ∧ 2 ≤ site.rule.listed.count selector := by
  rw [overrides_analyze]
  constructor
  · rintro ⟨override, hmem, rfl, rfl, rfl, hnot⟩
    obtain ⟨key, ⟨previous, current⟩, hpair, rfl⟩ := mem_findAll_iff.mp hmem
    obtain ⟨hprevious, hcurrent⟩ := List.of_mem_zip hpair
    obtain ⟨earlier, hearlier, -, -, -, rfl⟩ := mem_ordered.mp hprevious
    obtain ⟨later, hlater, hcontext, hproperty, -, rfl⟩ :=
      mem_ordered.mp (List.mem_of_mem_tail hcurrent)
    have hle : earlier.offset ≤ later.offset := rel_of_mem_consecutive (pairwise_ordered _ _) hpair
    have hsame : earlier.offset = later.offset := by
      refine Nat.le_antisymm hle (Nat.le_of_not_lt fun hlt => hnot ?_)
      rw [ofPair, position_eq_positionAt, position_eq_positionAt]
      exact Text.positionAt_before hlt (Nat.le_of_lt (Site.offset_lt_length hlater))
    have htwo : 2 ≤ (ordered (blocksOf source) key).countP (·.offset == later.offset) :=
      (exists_consecutive_iff (pairwise_ordered _ _)).mp ⟨_, hpair, hsame, rfl⟩
    rw [(ordered_perm _ _).countP_eq, countP_declared hlater, Site.multiplicity,
      if_pos ⟨hcontext, hproperty⟩] at htwo
    exact ⟨later, hlater, hproperty, (position_eq_positionAt source _).symm, htwo⟩
  · rintro ⟨site, hsite, rfl, rfl, htwo⟩
    have hgroup : 2 ≤ (ordered (blocksOf source) (site.key selector)).countP
        (·.offset == site.offset) := by
      rw [(ordered_perm _ _).countP_eq, countP_declared hsite, Site.multiplicity,
        if_pos ⟨rfl, rfl⟩]
      exact htwo
    obtain ⟨pair, hpair, hprevious, hcurrent⟩ :=
      (exists_consecutive_iff (pairwise_ordered _ _)).mpr hgroup
    refine ⟨_, mem_findAll_iff.mpr ⟨site.key selector, pair, hpair, rfl⟩, rfl, rfl, ?_, ?_⟩
    · rw [ofPair, hcurrent]
      exact position_eq_positionAt source _
    · rw [ofPair, hcurrent, hprevious]
      exact Position.not_before_self _

/-- A rule that lists a selector twice makes its declaration override itself. -/
theorem overrides_itself_repeated :
    ∃ override ∈ (analyze "<style>.a, .a\x7bcolor:red\x7d</style>" "Component.svelte").overrides,
      ¬ override.previous.Before override.position := by
  obtain ⟨pair, hpair, hsame⟩ : ∃ pair ∈ consecutive (declared
      (blocksOf "<style>.a, .a\x7bcolor:red\x7d</style>") ⟨[], ".a", "color"⟩),
      pair.1.offset = pair.2.offset := by decide +kernel
  refine ⟨_, mem_overrides_of_pair (by decide +kernel) hpair, ?_⟩
  rw [ofPair, hsame]
  exact Position.not_before_self _

/-! ## What an override is about -/

/-- The selectors of the rules around a declaration in a file, nearest first. -/
def Site.ancestors (source : Text) (site : Site) : List Text :=
  ((Sheet.ofText (site.region.span.body source)).ancestors site.rule).map (·.selectorText)

/-- The conditional at-rules around a declaration in a file, nearest first. -/
def Site.conditions (source : Text) (site : Site) : List Text :=
  Sheet.conditionsOf (site.region.span.body source) site.rule

/-- The two declarations of a file that an override is about, and what they share. -/
structure Links (source : Text) (override : StyleOverride) (earlier later : Site) : Prop where
  previous : ∀ site ∈ sites (blocksOf source),
    source.positionAt site.offset = override.previous ↔ site = earlier
  position : ∀ site ∈ sites (blocksOf source),
    source.positionAt site.offset = override.position ↔ site = later
  selector : override.selector ∈ earlier.rule.listed ∧ override.selector ∈ later.rule.listed
  property : earlier.declaration.property = override.property ∧
    later.declaration.property = override.property
  condition : (earlier.conditions source).head? = (later.conditions source).head?

/-- Every override of an analysis is about two declarations with one selector under one condition. -/
def KeepApart (source : Text) (overrides : List StyleOverride) : Prop :=
  ∀ override ∈ overrides, ∃ earlier ∈ sites (blocksOf source), ∃ later ∈ sites (blocksOf source),
    override.Links source earlier later

theorem Site.head?_conditions {source : Text} {site : Site} (h : site ∈ sites (blocksOf source)) :
    (site.conditions source).head? =
      if site.rule.context = [] then none else some site.rule.context :=
  Sheet.head?_conditionsOf (mem_sites_blocksOf.mp h).2.1

/-- An override is about two declarations whose rules list its selector, and the nearest conditional
at-rule around them is the same. -/
theorem overrides_keepApart (source path : Text) (options : Options) :
    KeepApart source (analyze source path options).overrides := by
  intro override hmem
  rw [overrides_analyze] at hmem
  obtain ⟨earlier, hearlier, later, hlater, hbetween⟩ := exists_between hmem
  have hprevious := hbetween.previous
  have hposition := hbetween.position
  rw [position_eq_positionAt] at hprevious hposition
  refine ⟨earlier, hearlier, later, hlater, ?_, ?_, hbetween.selector, hbetween.property, ?_⟩
  · intro site hsite
    rw [hprevious]
    exact ⟨Site.eq_of_positionAt hsite hearlier, fun h => h ▸ rfl⟩
  · intro site hsite
    rw [hposition]
    exact ⟨Site.eq_of_positionAt hsite hlater, fun h => h ▸ rfl⟩
  · rw [Site.head?_conditions hearlier, Site.head?_conditions hlater, hbetween.context]

/-- One selector in two parents. -/
def twoParents : Text :=
  "<style>.a\x7b&:hover\x7bcolor:red\x7d\x7d.b\x7b&:hover\x7bcolor:blue\x7d\x7d</style>"

/-- One at-rule in two others. -/
def twoConditions : Text :=
  "<style>@media a\x7b@layer x\x7b.c\x7bcolor:red\x7d\x7d\x7d" ++
    "@supports b\x7b@layer x\x7b.c\x7bcolor:blue\x7d\x7d\x7d</style>"

/-- An override of a file is about two declarations that a view of their surroundings tells apart. -/
def ConflictAcross (view : Text → Site → List Text) (source : Text) : Prop :=
  ∃ override ∈ (analyze source "Component.svelte").overrides,
    ∃ earlier ∈ sites (blocksOf source), ∃ later ∈ sites (blocksOf source),
      override.previous = source.positionAt earlier.offset ∧
      override.position = source.positionAt later.offset ∧ view source earlier ≠ view source later

theorem conflictAcross_of_pair {view : Text → Site → List Text} {source : Text} (key : Key)
    (hsorted : (declared (blocksOf source) key).Pairwise fun a b => a.offset ≤ b.offset)
    (h : ∃ pair ∈ consecutive (declared (blocksOf source) key),
      ∃ earlier ∈ sites (blocksOf source), ∃ later ∈ sites (blocksOf source),
        pair.1.offset = earlier.offset ∧ pair.2.offset = later.offset ∧
        view source earlier ≠ view source later) : ConflictAcross view source := by
  obtain ⟨pair, hpair, earlier, hearlier, later, hlater, hprevious, hposition, hne⟩ := h
  refine ⟨_, mem_overrides_of_pair hsorted hpair, earlier, hearlier, later, hlater, ?_, ?_, hne⟩
  · rw [← hprevious, ← position_eq_positionAt, ofPair]
  · rw [← hposition, ← position_eq_positionAt, ofPair]

/-- The rules around two declarations in conflict can differ, and so can the conditions behind the
nearest one. -/
theorem overrides_across_nesting :
    ConflictAcross Site.ancestors twoParents ∧ ConflictAcross Site.conditions twoConditions := by
  constructor
  · exact conflictAcross_of_pair ⟨[], "&:hover", "color"⟩ (by decide +kernel) (by decide +kernel)
  · exact conflictAcross_of_pair ⟨"@layer x", ".c", "color"⟩ (by decide +kernel) (by decide +kernel)

end StyleOverride

end ComponentAudit
