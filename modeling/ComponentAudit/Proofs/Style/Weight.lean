import ComponentAudit.Proofs.Text.Reading
import ComponentAudit.Style.Selector

/-! # The weight of a complex selector

Runs of combinators part a selector into compound selectors, and its elements are the compounds that
open with a letter (`elementCount_eq`). Two texts with combinators between them have the compounds of
both, however many combinators stand at their inner ends (`compounds_append`), so their weights add up
(`specificity_append`). -/

namespace ComponentAudit.Selector

/-- The compound selectors of a text: what is left between its runs of combinators. -/
def compounds (t : Text) : List Text := (t.splitOnP isCombinator).filter (!·.isEmpty)

/-- Whether a compound selector opens with an element. -/
def opensWithLetter (compound : Text) : Bool := compound.head?.any isLetter

theorem isLetter_of_isCombinator {c : Char} (h : isCombinator c = true) : isLetter c = false := by
  simp only [isCombinator, Bool.or_eq_true, beq_iff_eq] at h
  obtain ((h | rfl) | rfl) | rfl := h
  · exact of_isSpace h (by decide +kernel)
  · decide
  · decide
  · decide

/-! ## Compounds -/

/-- A combinator parts the text in two. -/
theorem compounds_append_cons (a b : Text) {c : Char} (hc : isCombinator c = true) :
    compounds (a ++ c :: b) = compounds a ++ compounds b := by
  rw [compounds, List.splitOnP_append_cons a b hc, List.filter_append]
  rfl

/-- Combinators in front belong to no compound. -/
theorem compounds_of_combinators {gap : Text} (hgap : ∀ c ∈ gap, isCombinator c = true) (b : Text) :
    compounds (gap ++ b) = compounds b := by
  induction gap with
  | nil => rfl
  | cons c gap ih =>
    obtain ⟨hc, hgap⟩ := List.forall_mem_cons.mp hgap
    rw [List.cons_append, ← ih hgap]
    exact compounds_append_cons [] (gap ++ b) hc

/-- Two texts with combinators between them have the compounds of both: what the run takes up at the
inner ends is no compound. -/
theorem compounds_append (a b : Text) {gap : Text} (hne : gap ≠ [])
    (hgap : ∀ c ∈ gap, isCombinator c = true) :
    compounds (a ++ gap ++ b) = compounds a ++ compounds b := by
  obtain ⟨c, gap, rfl⟩ := List.exists_cons_of_ne_nil hne
  obtain ⟨hc, hgap⟩ := List.forall_mem_cons.mp hgap
  rw [List.append_assoc, List.cons_append, compounds_append_cons a _ hc,
    compounds_of_combinators hgap]

/-! ## Elements -/

/-- An empty piece opens with no letter. -/
theorem countP_compounds (t : Text) :
    (compounds t).countP opensWithLetter = (t.splitOnP isCombinator).countP opensWithLetter := by
  rw [compounds, List.countP_filter]
  refine List.countP_congr fun piece _ => ?_
  cases piece with
  | nil => simp [opensWithLetter]
  | cons c piece => simp

/-- Inside a compound the count passes over the rest of it, so the first piece does not count. -/
theorem elementCount_eq_countP (boundary : Bool) (t : Text) :
    elementCount boundary t =
      (if boundary then t.splitOnP isCombinator else (t.splitOnP isCombinator).tail).countP
        opensWithLetter := by
  induction t generalizing boundary with
  | nil => cases boundary <;> simp [elementCount, opensWithLetter, List.splitOnP_nil]
  | cons c t ih =>
    rw [elementCount, ih, List.splitOnP_cons_eq_if_modifyHead]
    by_cases hc : isCombinator c = true
    · have hletter := isLetter_of_isCombinator hc
      cases boundary <;> simp [hc, hletter, opensWithLetter]
    · obtain ⟨piece, pieces, hpieces⟩ := List.exists_cons_of_ne_nil (List.splitOnP_ne_nil isCombinator t)
      rw [hpieces]
      cases boundary
      · simp [hc]
      · cases hletter : isLetter c <;>
          simp [hc, hletter, opensWithLetter, Nat.add_comm]

/-- The elements of a selector are its compounds that open with a letter. -/
theorem elementCount_eq (t : Text) : elementCount true t = (compounds t).countP opensWithLetter := by
  rw [elementCount_eq_countP, if_pos rfl, countP_compounds]

/-! ## Weights -/

/-- What is no combinator stands in the two texts only. -/
theorem count_append_combinators (a b : Text) {gap : Text} (hgap : ∀ c ∈ gap, isCombinator c = true)
    {mark : Char} (hmark : isCombinator mark = false) :
    (a ++ gap ++ b).count mark = a.count mark + b.count mark := by
  have hnone : gap.count mark = 0 := by
    refine List.count_eq_zero.mpr fun hmem => ?_
    rw [hgap mark hmem] at hmark
    cases hmark
  rw [List.count_append, List.count_append, hnone, Nat.add_zero]

/-- The weight of two selectors with combinators between them is the sum of their weights. -/
theorem specificity_append (a b : Text) {gap : Text} (hne : gap ≠ [])
    (hgap : ∀ c ∈ gap, isCombinator c = true) :
    specificity (a ++ gap ++ b) = specificity a + specificity b := by
  have helements : elementCount true (a ++ gap ++ b) = elementCount true a + elementCount true b := by
    rw [elementCount_eq, compounds_append a b hne hgap, List.countP_append, elementCount_eq,
      elementCount_eq]
  simp only [specificity, helements,
    count_append_combinators a b hgap (by decide : isCombinator '#' = false),
    count_append_combinators a b hgap (by decide : isCombinator '.' = false),
    count_append_combinators a b hgap (by decide : isCombinator '[' = false),
    count_append_combinators a b hgap (by decide : isCombinator ':' = false)]
  omega

/-- Combinators stand at both inner ends as well: an id, a class, an attribute and two elements. -/
theorem specificity_append_merged :
    (" +\t" : Text) ≠ [] ∧ (∀ c ∈ (" +\t" : Text), isCombinator c = true) ∧
      specificity (("ul#nav > li.on >" : Text) ++ " +\t" ++ "~ [href]") =
        specificity "ul#nav > li.on >" + specificity "~ [href]" ∧
      specificity "ul#nav > li.on >" = 112 ∧ specificity "~ [href]" = 10 := by
  have hgap : ∀ c ∈ (" +\t" : Text), isCombinator c = true := List.all_eq_true.mp (by decide)
  exact ⟨by decide, hgap, specificity_append _ _ (by decide) hgap, by decide, by decide⟩

end ComponentAudit.Selector
