import ComponentAudit.Proofs.Shift.Text

/-! # Regions and markup below a line feed

The elements of a text with a line feed in front are the old ones further on, with the same bodies and
tags. Its markup is the old markup with the line feed in front, and what was found in the old markup
comes from one character further on (`Markup.LineBelow`). -/

namespace ComponentAudit

/-! ## Elements -/

theorem opensTag_lineFeed (tag t : Text) : opensTag tag ('\n' :: t) = false := by
  simp [opensTag, List.isPrefixOf]

/-- A search that ended further on. -/
def SearchEnd.shift (lines : Nat) : SearchEnd → SearchEnd
  | .exhausted => .exhausted
  | .unterminatedTag start => .unterminatedTag (start + lines)
  | .missingClose tagEnd => .missingClose (tagEnd + lines)

def ElementSearch.shift (lines : Nat) (search : ElementSearch) : ElementSearch where
  spans := search.spans.map (·.shift lines)
  stop := search.stop.shift lines

theorem elementAt_succ (tag : Text) (offset : Nat) (t : Text) :
    elementAt tag (offset + 1) t =
      match elementAt tag offset t with
      | .ok span => .ok (span.shift 1)
      | .error stop => .error (stop.shift 1) := by
  unfold elementAt
  cases Text.cut? ">" (t.drop (tag.length + 1)) with
  | none => rfl
  | some opened =>
    obtain ⟨inTag, rest⟩ := opened
    simp only
    cases Text.cut? ("</" ++ tag ++ ">") rest with
    | none => simp only [SearchEnd.shift]; congr 2; omega
    | some closed => simp only [ElementSpan.shift]; congr 2 <;> omega

theorem elementsFrom_succ (tag : Text) (covered offset : Nat) (t : Text) :
    elementsFrom tag covered (offset + 1) t = (elementsFrom tag covered offset t).shift 1 := by
  induction t generalizing covered offset with
  | nil => rfl
  | cons c t ih =>
    cases covered with
    | succ covered => simpa only [elementsFrom] using ih covered (offset + 1)
    | zero =>
      by_cases ho : opensTag tag (c :: t)
      · simp only [elementsFrom, ho, if_true, elementAt_succ]
        cases elementAt tag offset (c :: t) with
        | error stop => rfl
        | ok span =>
          have hcovered : (span.shift 1).elementEnd - (offset + 1) - 1 =
              span.elementEnd - offset - 1 := by
            simp only [ElementSpan.shift]
            omega
          simp only [hcovered, ih]
          rfl
      · simpa only [elementsFrom, ho, Bool.false_eq_true, if_false] using ih 0 (offset + 1)

theorem elements_lineFeed (tag t : Text) :
    elements tag ('\n' :: t) = (elements tag t).shift 1 := by
  rw [elements, elementsFrom]
  simp only [opensTag_lineFeed, Bool.false_eq_true, if_false]
  exact elementsFrom_succ tag 0 0 t

/-! ## Regions -/

@[simp] theorem body_shift (span : ElementSpan) (t : Text) :
    (span.shift 1).body ('\n' :: t) = span.body t :=
  Text.slice_lineFeed t _ _

@[simp] theorem tag_shift (span : ElementSpan) (t : Text) :
    (span.shift 1).tag ('\n' :: t) = span.tag t :=
  Text.slice_lineFeed t _ _

@[simp] theorem startsInside_shift (span container : ElementSpan) :
    (span.shift 1).startsInside (container.shift 1) = span.startsInside container := by
  simp [ElementSpan.startsInside, ElementSpan.shift]

theorem scriptRegion_ofSpan_shift (t : Text) (span : ElementSpan) :
    ScriptRegion.ofSpan ('\n' :: t) (span.shift 1) = (ScriptRegion.ofSpan t span).shift 1 := by
  simp [ScriptRegion.ofSpan, ScriptRegion.shift]

theorem styleRegion_ofSpan_shift (t : Text) (index : Nat) (span : ElementSpan) :
    StyleRegion.ofSpan ('\n' :: t) index (span.shift 1) = (StyleRegion.ofSpan t index span).shift 1 := by
  simp [StyleRegion.ofSpan, StyleRegion.shift]

/-- Regions further on. -/
def Regions.shift (lines : Nat) (regions : Regions) : Regions where
  scripts := regions.scripts.map (·.shift lines)
  styles := regions.styles.map (·.shift lines)

theorem regions_lineFeed (t : Text) : Regions.ofText ('\n' :: t) = (Regions.ofText t).shift 1 := by
  have hkept : ∀ scripts styles : List ElementSpan,
      ((styles.map (·.shift 1)).filter fun span =>
          !(scripts.map (·.shift 1)).any (span.startsInside ·)) =
        (styles.filter fun span => !scripts.any (span.startsInside ·)).map (·.shift 1) := by
    intro scripts styles
    rw [List.filter_map]
    congr 2
    funext span
    simp [List.any_map, Function.comp_def]
  simp only [Regions.ofText, Regions.shift, elements_lineFeed, ElementSearch.shift, hkept,
    List.zipIdx_map, List.map_map]
  congr 1
  · exact List.map_congr_left fun span _ => scriptRegion_ofSpan_shift t span
  · exact List.map_congr_left fun entry _ => styleRegion_ofSpan_shift t entry.2 entry.1

/-! ## Markup -/

namespace Markup

def shiftSpan (span : Span) : Span := ⟨span.start + 1, span.stop + 1⟩

def shiftSegment (segment : Segment) : Segment := ⟨segment.markupStart + 1, segment.sourceStart + 1⟩

theorem piecesFrom_lineFeed (source : Text) (cursor size : Nat) (spans : List Span) :
    piecesFrom ('\n' :: source) (cursor + 1) (size + 1) (spans.map shiftSpan) =
      (piecesFrom source cursor size spans).map fun piece => (shiftSegment piece.1, piece.2) := by
  induction spans generalizing cursor size with
  | nil => by_cases h : cursor < source.length <;> simp [piecesFrom, h, shiftSegment]
  | cons span spans ih =>
    have hmax : max (cursor + 1) (span.stop + 1) = max cursor span.stop + 1 := by omega
    by_cases h : cursor < span.start
    · have hsize : size + 1 + (span.start - cursor) = size + (span.start - cursor) + 1 := by omega
      have hrest := ih (max cursor span.stop) (size + (span.start - cursor))
      simp [piecesFrom, shiftSpan, h, hmax, hsize, Text.slice_lineFeed, shiftSegment, hrest]
    · simp [piecesFrom, shiftSpan, h, hmax, ih]

/-- The first piece of a markup starts where the markup does. -/
theorem markupStart_piecesFrom {source : Text} {cursor size : Nat} {spans : List Span}
    {segment : Segment} {piece : Text} {pieces : List (Segment × Text)}
    (h : piecesFrom source cursor size spans = (segment, piece) :: pieces) :
    segment.markupStart = size := by
  induction spans generalizing cursor with
  | nil =>
    by_cases hc : cursor < source.length
    · simp only [piecesFrom, hc, if_true, List.cons.injEq, Prod.mk.injEq] at h
      rw [← h.1.1]
    · simp [piecesFrom, hc] at h
  | cons span spans ih =>
    by_cases hc : cursor < span.start
    · simp only [piecesFrom, hc, if_true, List.cons.injEq, Prod.mk.injEq] at h
      rw [← h.1.1]
    · simp only [piecesFrom, hc, if_false] at h
      exact ih h

/-- What the pieces of a text with a line feed in front are: the first piece got longer, or a piece
of its own was added. -/
theorem piecesFrom_start (source : Text) (spans : List Span) :
    (∃ piece pieces, piecesFrom source 0 0 spans = (⟨0, 0⟩, piece) :: pieces ∧
      piecesFrom ('\n' :: source) 0 0 (spans.map shiftSpan) =
        (⟨0, 0⟩, '\n' :: piece) :: pieces.map fun piece => (shiftSegment piece.1, piece.2)) ∨
    piecesFrom ('\n' :: source) 0 0 (spans.map shiftSpan) =
      (⟨0, 0⟩, ['\n']) ::
        (piecesFrom source 0 0 spans).map fun piece => (shiftSegment piece.1, piece.2) := by
  cases spans with
  | nil =>
    cases source with
    | nil => right; rfl
    | cons c source => left; exact ⟨c :: source, [], rfl, rfl⟩
  | cons span spans =>
    have hrest := piecesFrom_lineFeed source span.stop span.start spans
    by_cases h : 0 < span.start
    · left
      refine ⟨source.slice 0 span.start, piecesFrom source span.stop span.start spans, ?_, ?_⟩
      · simp [piecesFrom, h]
      · rw [← hrest]
        simp [piecesFrom, shiftSpan, Text.slice]
    · right
      have hzero : span.start = 0 := by omega
      rw [hzero] at hrest
      simp [piecesFrom, shiftSpan, Text.slice, hzero, hrest]

/-- One markup is the other with a line feed in front, and its offsets come from one further on. -/
structure LineBelow (above below : Markup) : Prop where
  text : below.text = '\n' :: above.text
  sourceIndex : above.text ≠ [] →
    ∀ offset, below.sourceIndex (offset + 1) = above.sourceIndex offset + 1

theorem takeWhile_shiftSegment (segments : List Segment) (offset : Nat) :
    (segments.map shiftSegment).takeWhile (fun segment => segment.markupStart ≤ ((offset + 1 : Nat) : Int)) =
      (segments.takeWhile fun segment => segment.markupStart ≤ (offset : Int)).map shiftSegment := by
  rw [List.takeWhile_map]
  congr 2
  funext segment
  have hle : ((segment.markupStart + 1 : Nat) : Int) ≤ ((offset + 1 : Nat) : Int) ↔
      (segment.markupStart : Int) ≤ (offset : Int) := by omega
  simp only [Function.comp_apply, shiftSegment, hle]

/-- The segment of an offset starts at or before it. -/
theorem markupStart_segmentAt_le {markup : Markup} (h : markup.first.markupStart = 0) (offset : Nat) :
    ((markup.segmentAt offset).markupStart : Int) ≤ offset := by
  rw [segmentAt, List.getLastD_eq_getLast?]
  cases hlast : (markup.rest.takeWhile
      fun segment => decide ((segment.markupStart : Int) ≤ (offset : Int))).getLast? with
  | none => simp [h]
  | some segment =>
    have hmem := List.mem_of_getLast? hlast
    have hall := List.all_takeWhile (p := fun s : Segment => decide ((s.markupStart : Int) ≤ offset))
      (l := markup.rest)
    simpa using List.all_eq_true.mp hall segment hmem

/-- A markup in which all segments but the first are moved on, and the first starts as before or is
moved on too and follows the new start. -/
theorem sourceIndex_shiftSegment {above below : Markup} (h0 : above.first.markupStart = 0)
    (hfirst : below.first = ⟨0, 0⟩)
    (hrest : (above.first = ⟨0, 0⟩ ∧ below.rest = above.rest.map shiftSegment) ∨
      below.rest = (above.first :: above.rest).map shiftSegment) (offset : Nat) :
    below.sourceIndex (offset + 1) = above.sourceIndex offset + 1 := by
  have hle := markupStart_segmentAt_le h0 offset
  have hseg : below.segmentAt (offset + 1 : Nat) = shiftSegment (above.segmentAt offset) ∨
      above.segmentAt offset = ⟨0, 0⟩ ∧ below.segmentAt (offset + 1 : Nat) = ⟨0, 0⟩ := by
    rcases hrest with ⟨hold, hrest⟩ | hrest
    · rw [segmentAt, segmentAt, hrest, takeWhile_shiftSegment, hfirst, hold,
        List.getLastD_eq_getLast?, List.getLastD_eq_getLast?, List.getLast?_map]
      cases (above.rest.takeWhile
          fun segment => decide ((segment.markupStart : Int) ≤ (offset : Int))).getLast? with
      | none => right; exact ⟨rfl, rfl⟩
      | some segment => left; rfl
    · left
      have hkept : (above.first :: above.rest).takeWhile
          (fun segment => decide ((segment.markupStart : Int) ≤ (offset : Int))) =
          above.first :: above.rest.takeWhile
            (fun segment => decide ((segment.markupStart : Int) ≤ (offset : Int))) :=
        List.takeWhile_cons_of_pos (by simp [h0])
      rw [segmentAt, segmentAt, hrest, takeWhile_shiftSegment, hkept, List.getLastD_eq_getLast?,
        List.getLastD_eq_getLast?, List.getLast?_map, List.getLast?_cons]
      rfl
  simp only [sourceIndex, sourceOffset]
  rcases hseg with hseg | ⟨hold, hseg⟩
  · rw [hseg, shiftSegment]
    dsimp only
    omega
  · rw [hold, hseg]
    dsimp only
    omega

theorem ofRemoved_lineFeed (source : Text) (removed : List Span) :
    LineBelow (ofRemoved source removed) (ofRemoved ('\n' :: source) (removed.map shiftSpan)) := by
  have hsort : (removed.map shiftSpan).mergeSort spanLe =
      (removed.mergeSort spanLe).map shiftSpan := by
    refine (List.map_mergeSort fun a _ b _ => ?_).symm
    simp [spanLe, shiftSpan]
  rcases piecesFrom_start source (removed.mergeSort spanLe) with ⟨piece, pieces, hold, hnew⟩ | hnew
  · refine ⟨?_, fun _ => sourceIndex_shiftSegment ?_ ?_ (.inl ⟨?_, ?_⟩)⟩ <;>
      simp [ofRemoved, hsort, hold, hnew, List.flatMap_map, Function.comp_def]
  · cases hold : piecesFrom source 0 0 (removed.mergeSort spanLe) with
    | nil =>
      rw [hold] at hnew
      refine ⟨?_, fun h => absurd ?_ h⟩ <;> simp [ofRemoved, hsort, hold, hnew]
    | cons first pieces =>
      obtain ⟨segment, piece⟩ := first
      rw [hold] at hnew
      have hstart := markupStart_piecesFrom hold
      refine ⟨?_, fun _ => sourceIndex_shiftSegment ?_ ?_ (.inr ?_)⟩ <;>
        simp [ofRemoved, hsort, hold, hnew, hstart, List.flatMap_map, Function.comp_def]

theorem ofRegions_lineFeed (source : Text) (regions : Regions) :
    LineBelow (ofRegions source regions) (ofRegions ('\n' :: source) (regions.shift 1)) := by
  have h := ofRemoved_lineFeed source <|
    (regions.scripts.map (·.span) ++ regions.styles.map (·.span)).map fun span =>
      ⟨span.elementStart, span.elementEnd⟩
  simpa [ofRegions, Regions.shift, ScriptRegion.shift, StyleRegion.shift, ElementSpan.shift,
    shiftSpan, Function.comp_def] using h

end Markup

end ComponentAudit
