import ComponentAudit.Proofs.Component.Owner

/-! # Elements that overlap

Elements of one kind lie one behind the other. Style elements that start inside a script are dropped,
but a script may start inside a style element, and such a pair is the only way in which two regions of
a file overlap. -/

namespace ComponentAudit

namespace ElementSpan

/-- Two elements share no character. -/
def Apart (a b : ElementSpan) : Prop :=
  a.elementEnd ≤ b.elementStart ∨ b.elementEnd ≤ a.elementStart

instance (a b : ElementSpan) : Decidable (a.Apart b) := inferInstanceAs (Decidable (_ ∨ _))

/-- Elements that are not empty share no character exactly if neither starts inside the other. -/
theorem apart_iff {a b : ElementSpan} (ha : a.elementStart < a.elementEnd)
    (hb : b.elementStart < b.elementEnd) :
    a.Apart b ↔ a.startsInside b = false ∧ b.startsInside a = false := by
  simp only [Apart, startsInside, Bool.and_eq_false_iff, decide_eq_false_iff_not]
  omega

end ElementSpan

theorem elementAt_not_empty {tag t : Text} {offset : Nat} {span : ElementSpan}
    (h : elementAt tag offset t = .ok span) : span.elementStart < span.elementEnd := by
  unfold elementAt at h
  split at h
  · cases h
  · simp only at h
    split at h
    · cases h
    · obtain rfl := Except.ok.inj h
      simp only
      omega

theorem elementsFrom_not_empty {tag : Text} {covered offset : Nat} {t : Text} {span : ElementSpan}
    (h : span ∈ (elementsFrom tag covered offset t).spans) : span.elementStart < span.elementEnd := by
  induction t generalizing covered offset with
  | nil => cases h
  | cons c t ih =>
    cases covered with
    | succ covered => exact ih h
    | zero =>
      rw [elementsFrom] at h
      split at h
      · split at h
        · cases h
        · rename_i found hfound
          rcases List.mem_cons.mp h with rfl | h
          · exact elementAt_not_empty hfound
          · exact ih h
      · exact ih h

theorem elements_pairwise_apart (tag t : Text) :
    (elements tag t).spans.Pairwise ElementSpan.Apart :=
  (elementsFrom_ordered tag 0 0 t).2.imp .inl

namespace Regions

/-- The elements of a file, its scripts first. -/
def spans (regions : Regions) : List ElementSpan :=
  regions.scripts.map (·.span) ++ regions.styles.map (·.span)

theorem scripts_span (t : Text) : (ofText t).scripts.map (·.span) = (elements "script" t).spans := by
  simp only [ofText, List.map_map]
  exact List.map_id _

theorem styles_span (t : Text) :
    (ofText t).styles.map (·.span) =
      (elements "style" t).spans.filter fun span =>
        !(elements "script" t).spans.any (span.startsInside ·) := by
  simp only [ofText, StyleRegion.ofSpan, List.map_map]
  exact List.zipIdx_map_fst 0 _

/-- The regions of a file overlap only where a script starts inside a style element. -/
theorem spans_pairwise_apart_iff (t : Text) :
    (ofText t).spans.Pairwise ElementSpan.Apart ↔
      ∀ script ∈ (ofText t).scripts, ∀ style ∈ (ofText t).styles,
        script.span.startsInside style.span = false := by
  have hmixed : (ofText t).spans.Pairwise ElementSpan.Apart ↔
      ∀ a ∈ (ofText t).scripts.map (·.span), ∀ b ∈ (ofText t).styles.map (·.span), a.Apart b := by
    rw [spans, List.pairwise_append, scripts_span, styles_span]
    have hscripts := elements_pairwise_apart "script" t
    have hstyles := (elements_pairwise_apart "style" t).filter fun span =>
      !(elements "script" t).spans.any (span.startsInside ·)
    simp only [hscripts, hstyles, true_and]
  rw [hmixed]
  simp only [List.forall_mem_map]
  refine forall₂_congr fun script hscript => forall₂_congr fun style hstyle => ?_
  have hin : script.span ∈ (elements "script" t).spans :=
    scripts_span t ▸ List.mem_map_of_mem hscript
  obtain ⟨hfound, hkept⟩ : style.span ∈ (elements "style" t).spans ∧
      (!(elements "script" t).spans.any (style.span.startsInside ·)) = true :=
    List.mem_filter.mp (styles_span t ▸ List.mem_map_of_mem hstyle)
  -- the style element was kept, so it does not start inside this script
  have hnot : style.span.startsInside script.span = false := by
    rw [Bool.not_eq_true', List.any_eq_false] at hkept
    simpa using hkept script.span hin
  rw [ElementSpan.apart_iff (elementsFrom_not_empty hin) (elementsFrom_not_empty hfound)]
  exact and_iff_left hnot

/-- A script inside a style element is a region of its own and overlaps it. -/
theorem spans_overlap_script_in_style :
    ¬ (ofText "<style><script></script></style>").spans.Pairwise ElementSpan.Apart := by
  decide +kernel

end Regions

end ComponentAudit
