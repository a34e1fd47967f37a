import ComponentAudit.Proofs.Component.Blanking
import ComponentAudit.Proofs.Text.Slice
import Mathlib.Order.Monotone.Basic

/-! # The way back from the markup

The kept pieces of a file lie one behind the other, in the markup without gaps and in the file with
the removed elements between them. So the map from offsets of the markup to offsets of the file is
strictly increasing, and what lies in the markup comes from inside the file. -/

namespace ComponentAudit

theorem elementsFrom_within {tag t : Text} {covered offset : Nat} {span : ElementSpan}
    (h : span ∈ (elementsFrom tag covered offset t).spans) : span.elementEnd ≤ offset + t.length := by
  induction t generalizing covered offset with
  | nil => cases h
  | cons c t ih =>
    have hlater : ∀ covered, span ∈ (elementsFrom tag covered (offset + 1) t).spans →
        span.elementEnd ≤ offset + (c :: t).length := by
      intro covered h
      have hle := ih h
      rw [List.length_cons]
      omega
    cases covered with
    | succ covered => exact hlater covered h
    | zero =>
      rw [elementsFrom] at h
      split at h
      · rename_i hopens
        split at h
        · cases h
        · rename_i found hfound
          rcases List.mem_cons.mp h with rfl | h
          · obtain ⟨-, text, rest, hsplit, hend, -⟩ := elementAt_eq_ok hopens hfound
            have hlength := congrArg List.length hsplit
            rw [List.length_append] at hlength
            omega
          · exact hlater _ h
      · exact hlater 0 h

namespace Markup

/-- A span in a text of a given length. -/
structure Fits (span : Span) (length : Nat) : Prop where
  ordered : span.start ≤ span.stop
  inside : span.stop ≤ length

/-- Pieces that lie one behind the other: in the markup from `size` on, without gaps, and in a source
of a given length from `cursor` on. -/
def Laid (length : Nat) : Nat → Nat → List (Segment × Text) → Prop
  | _, _, [] => True
  | size, cursor, (segment, piece) :: pieces =>
    segment.markupStart = size ∧ cursor ≤ segment.sourceStart ∧
      segment.sourceStart + piece.length ≤ length ∧
      Laid length (size + piece.length) (segment.sourceStart + piece.length) pieces

theorem Laid.from_earlier {length size cursor earlier : Nat} {pieces : List (Segment × Text)}
    (h : Laid length size cursor pieces) (hle : earlier ≤ cursor) :
    Laid length size earlier pieces := by
  cases pieces with
  | nil => trivial
  | cons piece pieces =>
    obtain ⟨hmarkup, hsource, hrest⟩ := h
    exact ⟨hmarkup, Nat.le_trans hle hsource, hrest⟩

theorem laid_piecesFrom (source : Text) {cursor size : Nat} {spans : List Span}
    (h : ∀ span ∈ spans, Fits span source.length) :
    Laid source.length size cursor (piecesFrom source cursor size spans) := by
  induction spans generalizing cursor size with
  | nil =>
    unfold piecesFrom
    split
    · refine ⟨rfl, Nat.le_refl _, ?_, trivial⟩
      simp only [List.length_drop]
      omega
    · trivial
  | cons span spans ih =>
    obtain ⟨hordered, hinside⟩ := h span List.mem_cons_self
    have hrest := fun span hspan => h span (List.mem_cons_of_mem _ hspan)
    unfold piecesFrom
    split
    · -- the piece ends where the span starts, and the source goes on behind the span
      have hlength := source.length_slice cursor (show span.start ≤ source.length by omega)
      refine ⟨rfl, Nat.le_refl _, ?_, ?_⟩
      · rw [hlength]
        dsimp only
        omega
      · rw [hlength]
        refine (ih hrest).from_earlier ?_
        dsimp only
        omega
    · exact (ih hrest).from_earlier (Nat.le_max_left _ _)

/-! ## The map over laid pieces -/

section Map

variable (text : Text) {first next : Segment} {rest : List Segment} {offset : Nat}

theorem sourceIndex_last (h : first.markupStart ≤ offset) :
    (⟨text, first, []⟩ : Markup).sourceIndex offset =
      first.sourceStart + (offset - first.markupStart) := by
  simp only [sourceIndex, sourceOffset, segmentAt, List.takeWhile_nil, List.getLastD_nil]
  omega

theorem sourceIndex_first (h : first.markupStart ≤ offset) (hnext : offset < next.markupStart) :
    (⟨text, first, next :: rest⟩ : Markup).sourceIndex offset =
      first.sourceStart + (offset - first.markupStart) := by
  have hstop : ¬ ((next.markupStart : Int) ≤ offset) := by omega
  simp only [sourceIndex, sourceOffset, segmentAt, List.takeWhile_cons, hstop, decide_false,
    Bool.false_eq_true, if_false, List.getLastD_nil]
  omega

theorem sourceIndex_next (h : next.markupStart ≤ offset) :
    (⟨text, first, next :: rest⟩ : Markup).sourceIndex offset =
      (⟨text, next, rest⟩ : Markup).sourceIndex offset := by
  have hgo : (next.markupStart : Int) ≤ offset := by omega
  simp only [sourceIndex, sourceOffset, segmentAt, List.takeWhile_cons, hgo, decide_true, if_true,
    List.getLastD_cons]

end Map

section Laid

variable {length size cursor offset : Nat} {first : Segment} {piece : Text}
  {pieces : List (Segment × Text)}

/-- Whatever is removed in between, the source has at least as far to go as the markup. -/
theorem Laid.le_sourceIndex (text : Text) (h : Laid length size cursor ((first, piece) :: pieces))
    (hoffset : size ≤ offset) :
    first.sourceStart + (offset - size) ≤
      (⟨text, first, pieces.map (·.1)⟩ : Markup).sourceIndex offset := by
  induction pieces generalizing size cursor first piece with
  | nil =>
    obtain ⟨rfl, -, -, -⟩ := h
    exact Nat.le_of_eq (sourceIndex_last text hoffset).symm
  | cons following pieces ih =>
    obtain ⟨next, inNext⟩ := following
    obtain ⟨rfl, -, -, hrest⟩ := h
    have ⟨hstart, hsource, _⟩ := hrest
    by_cases hin : offset < next.markupStart
    · exact Nat.le_of_eq (sourceIndex_first text hoffset hin).symm
    · have hle := ih hrest (by omega)
      simp only [List.map_cons]
      rw [sourceIndex_next text (by omega)]
      omega

theorem Laid.sourceIndex_succ (text : Text)
    (h : Laid length size cursor ((first, piece) :: pieces)) (hoffset : size ≤ offset) :
    (⟨text, first, pieces.map (·.1)⟩ : Markup).sourceIndex offset <
      (⟨text, first, pieces.map (·.1)⟩ : Markup).sourceIndex (offset + 1) := by
  induction pieces generalizing size cursor first piece with
  | nil =>
    obtain ⟨rfl, -, -, -⟩ := h
    rw [List.map_nil, sourceIndex_last text hoffset, sourceIndex_last text (by omega)]
    omega
  | cons following pieces ih =>
    obtain ⟨next, inNext⟩ := following
    obtain ⟨rfl, -, -, hrest⟩ := h
    have ⟨hstart, hsource, _⟩ := hrest
    simp only [List.map_cons]
    by_cases hin : offset + 1 < next.markupStart
    · rw [sourceIndex_first text hoffset (by omega), sourceIndex_first text (by omega) hin]
      omega
    · rw [sourceIndex_next text (show next.markupStart ≤ offset + 1 by omega)]
      by_cases hlast : offset < next.markupStart
      · -- from the last character of a piece to the first of the next one
        have hle := hrest.le_sourceIndex text (show _ ≤ offset + 1 by omega)
        rw [sourceIndex_first text hoffset hlast]
        omega
      · rw [sourceIndex_next text (by omega)]
        exact ih hrest (by omega)

/-- What lies in the markup comes from one of the pieces. -/
theorem Laid.exists_piece (text : Text) (h : Laid length size cursor ((first, piece) :: pieces))
    (hoffset : size ≤ offset)
    (hin : offset < size + piece.length + (pieces.flatMap (·.2)).length) :
    ∃ kept ∈ (first, piece) :: pieces,
      kept.1.sourceStart ≤ (⟨text, first, pieces.map (·.1)⟩ : Markup).sourceIndex offset ∧
      (⟨text, first, pieces.map (·.1)⟩ : Markup).sourceIndex offset <
        kept.1.sourceStart + kept.2.length := by
  induction pieces generalizing size cursor first piece with
  | nil =>
    obtain ⟨rfl, -, -, -⟩ := h
    rw [List.flatMap_nil, List.length_nil] at hin
    refine ⟨(first, piece), List.mem_cons_self, ?_⟩
    rw [List.map_nil, sourceIndex_last text hoffset]
    dsimp only
    omega
  | cons following pieces ih =>
    obtain ⟨next, inNext⟩ := following
    obtain ⟨rfl, -, -, hrest⟩ := h
    have ⟨hstart, _⟩ := hrest
    simp only [List.map_cons]
    by_cases hfirst : offset < next.markupStart
    · refine ⟨(first, piece), List.mem_cons_self, ?_⟩
      rw [sourceIndex_first text hoffset hfirst]
      dsimp only
      omega
    · simp only [List.flatMap_cons, List.length_append] at hin
      obtain ⟨kept, hkept, hplace⟩ := ih hrest (by omega) (by omega)
      rw [sourceIndex_next text (by omega)]
      exact ⟨kept, List.mem_cons_of_mem _ hkept, hplace⟩

theorem Laid.within {kept : Segment × Text} (h : Laid length size cursor pieces)
    (hkept : kept ∈ pieces) :
    cursor ≤ kept.1.sourceStart ∧ kept.1.sourceStart + kept.2.length ≤ length := by
  induction pieces generalizing size cursor with
  | nil => cases hkept
  | cons first pieces ih =>
    obtain ⟨-, hsource, hinside, hrest⟩ := h
    rcases List.mem_cons.mp hkept with rfl | hkept
    · exact ⟨hsource, hinside⟩
    · obtain ⟨hle, hend⟩ := ih hrest hkept
      exact ⟨by omega, hend⟩

end Laid

/-! ## What is removed -/

/-- Pieces that have nothing of a span. -/
def Clear (span : Span) (pieces : List (Segment × Text)) : Prop :=
  ∀ kept ∈ pieces,
    kept.1.sourceStart + kept.2.length ≤ span.start ∨ span.stop ≤ kept.1.sourceStart

/-- Spans in order of their starts leave nothing of themselves, also if they overlap. -/
theorem clear_piecesFrom (source : Text) {cursor size : Nat} {spans : List Span}
    (hfits : ∀ span ∈ spans, Fits span source.length)
    (hsorted : spans.Pairwise fun a b => a.start ≤ b.start) :
    ∀ span ∈ spans, Clear span (piecesFrom source cursor size spans) := by
  induction spans generalizing cursor size with
  | nil => exact fun span hspan => (List.not_mem_nil hspan).elim
  | cons first spans ih =>
    obtain ⟨hfirst, hlater⟩ := List.pairwise_cons.mp hsorted
    obtain ⟨hfit, hfitsLater⟩ := List.forall_mem_cons.mp hfits
    have hrest : ∀ size, ∀ span ∈ first :: spans,
        Clear span (piecesFrom source (max cursor first.stop) size spans) := by
      intro size span hspan
      rcases List.mem_cons.mp hspan with rfl | hspan
      · -- the pieces behind the span start behind its end
        intro kept hkept
        have hwithin := (laid_piecesFrom source hfitsLater).within hkept
        exact .inr (Nat.le_trans (Nat.le_max_right _ _) hwithin.1)
      · exact ih hfitsLater hlater span hspan
    intro span hspan
    have hstart : first.start ≤ span.start := by
      rcases List.mem_cons.mp hspan with rfl | hspan
      · exact Nat.le_refl _
      · exact hfirst span hspan
    unfold piecesFrom
    split
    · intro kept hkept
      rcases List.mem_cons.mp hkept with rfl | hkept
      · have hlength := source.length_slice cursor (Nat.le_trans hfit.ordered hfit.inside)
        dsimp only
        omega
      · exact hrest _ span hspan kept hkept
    · exact hrest _ span hspan

theorem spanLe_iff {a b : Span} :
    spanLe a b = true ↔ a.start < b.start ∨ a.start = b.start ∧ a.stop ≤ b.stop := by
  simp only [spanLe, Bool.or_eq_true, Bool.and_eq_true, decide_eq_true_eq, beq_iff_eq]

theorem pairwise_mergeSort_spanLe (removed : List Span) :
    (removed.mergeSort spanLe).Pairwise fun a b => a.start ≤ b.start := by
  have htrans : ∀ a b c : Span, spanLe a b = true → spanLe b c = true → spanLe a c = true := by
    intro a b c hab hbc
    rw [spanLe_iff] at hab hbc ⊢
    omega
  have htotal : ∀ a b : Span, (spanLe a b || spanLe b a) = true := by
    intro a b
    rw [Bool.or_eq_true, spanLe_iff, spanLe_iff]
    omega
  refine (List.pairwise_mergeSort htrans htotal removed).imp ?_
  intro a b hab
  rw [spanLe_iff] at hab
  omega

/-! ## The markup of a file -/

section Removed

variable (source : Text) {removed : List Span} (h : ∀ span ∈ removed, Fits span source.length)
include h

theorem laid_ofRemoved :
    Laid source.length 0 0 (piecesFrom source 0 0 (removed.mergeSort spanLe)) := by
  refine laid_piecesFrom source ?_
  intro span hspan
  exact h span (List.mem_mergeSort.mp hspan)

theorem strictMono_sourceIndex_ofRemoved : StrictMono (ofRemoved source removed).sourceIndex := by
  have hlaid := laid_ofRemoved source h
  refine strictMono_nat_of_lt_succ fun offset => ?_
  unfold ofRemoved
  cases hpieces : piecesFrom source 0 0 (removed.mergeSort spanLe) with
  | nil =>
    simp only
    rw [sourceIndex_last [] (Nat.zero_le _), sourceIndex_last [] (Nat.zero_le _)]
    dsimp only
    omega
  | cons piece pieces =>
    rw [hpieces] at hlaid
    exact hlaid.sourceIndex_succ _ (Nat.zero_le offset)

theorem sourceIndex_ofRemoved_lt {offset : Nat}
    (hoffset : offset < (ofRemoved source removed).text.length) :
    (ofRemoved source removed).sourceIndex offset < source.length := by
  have hlaid := laid_ofRemoved source h
  unfold ofRemoved at hoffset ⊢
  cases hpieces : piecesFrom source 0 0 (removed.mergeSort spanLe) with
  | nil =>
    rw [hpieces] at hoffset
    exact absurd hoffset (Nat.not_lt_zero offset)
  | cons piece pieces =>
    rw [hpieces] at hlaid hoffset
    rw [List.length_append] at hoffset
    obtain ⟨kept, hkept, -, hto⟩ :=
      hlaid.exists_piece (piece.2 ++ pieces.flatMap (·.2)) (Nat.zero_le offset) (by omega)
    exact Nat.lt_of_lt_of_le hto (hlaid.within hkept).2

/-- What lies in the markup comes from outside all that was removed. -/
theorem sourceIndex_ofRemoved_outside {offset : Nat}
    (hoffset : offset < (ofRemoved source removed).text.length) {span : Span} (hspan : span ∈ removed) :
    (ofRemoved source removed).sourceIndex offset < span.start ∨
      span.stop ≤ (ofRemoved source removed).sourceIndex offset := by
  have hlaid := laid_ofRemoved source h
  have hclear : Clear span (piecesFrom source 0 0 (removed.mergeSort spanLe)) :=
    clear_piecesFrom source (fun span hspan => h span (List.mem_mergeSort.mp hspan))
      (pairwise_mergeSort_spanLe removed) span (List.mem_mergeSort.mpr hspan)
  unfold ofRemoved at hoffset ⊢
  cases hpieces : piecesFrom source 0 0 (removed.mergeSort spanLe) with
  | nil =>
    rw [hpieces] at hoffset
    exact absurd hoffset (Nat.not_lt_zero offset)
  | cons piece pieces =>
    rw [hpieces] at hlaid hoffset hclear
    rw [List.length_append] at hoffset
    obtain ⟨kept, hkept, hfrom, hto⟩ :=
      hlaid.exists_piece (piece.2 ++ pieces.flatMap (·.2)) (Nat.zero_le offset) (by omega)
    rcases hclear kept hkept with hbefore | hbehind
    · exact .inl (Nat.lt_of_lt_of_le hto hbefore)
    · exact .inr (Nat.le_trans hbehind hfrom)

end Removed

/-- The elements of a file fit into it. -/
theorem fits_elements (source : Text) : ∀ span ∈ ((Regions.ofText source).scripts.map (·.span) ++
    (Regions.ofText source).styles.map (·.span)).map fun span =>
      (⟨span.elementStart, span.elementEnd⟩ : Span), Fits span source.length := by
  have hfits : ∀ tag, ∀ span ∈ (elements tag source).spans,
      Fits ⟨span.elementStart, span.elementEnd⟩ source.length := by
    intro tag span hspan
    have hwithin := elementsFrom_within hspan
    exact ⟨Nat.le_of_lt (elementsFrom_not_empty hspan), by simpa using hwithin⟩
  intro span hspan
  obtain ⟨element, helement, rfl⟩ := List.mem_map.mp hspan
  rcases List.mem_append.mp helement with hscript | hstyle
  · rw [Regions.scripts_span] at hscript
    exact hfits "script" element hscript
  · rw [Regions.styles_span] at hstyle
    exact hfits "style" element (List.mem_filter.mp hstyle).1

theorem strictMono_sourceIndex (source : Text) :
    StrictMono (ofRegions source (Regions.ofText source)).sourceIndex :=
  strictMono_sourceIndex_ofRemoved source (fits_elements source)

theorem sourceIndex_lt_length {source : Text} {offset : Nat}
    (h : offset < (ofRegions source (Regions.ofText source)).text.length) :
    (ofRegions source (Regions.ofText source)).sourceIndex offset < source.length :=
  sourceIndex_ofRemoved_lt source (fits_elements source) h

/-- No character of the markup comes from the inside of a script element. -/
theorem sourceIndex_outside_script {source : Text} {offset : Nat}
    (h : offset < (ofRegions source (Regions.ofText source)).text.length) {region : ScriptRegion}
    (hregion : region ∈ (Regions.ofText source).scripts) :
    (ofRegions source (Regions.ofText source)).sourceIndex offset < region.span.elementStart ∨
      region.span.elementEnd ≤ (ofRegions source (Regions.ofText source)).sourceIndex offset := by
  have hspan : region.span ∈ (Regions.ofText source).spans :=
    List.mem_append_left _ (List.mem_map.mpr ⟨region, hregion, rfl⟩)
  exact sourceIndex_ofRemoved_outside source (fits_elements source) h
    (List.mem_map.mpr ⟨region.span, hspan, rfl⟩)

end Markup

end ComponentAudit
