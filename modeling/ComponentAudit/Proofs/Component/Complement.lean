import ComponentAudit.Proofs.Component.Markup
import ComponentAudit.Proofs.Shift.Region

/-! # The markup is what no span covers

A source offset is kept if no removed span covers it, whatever the order of the spans and however they
overlap. The pieces of a markup stand at the kept offsets, in order and without one left out, so the
markup reads the source at these offsets, and its map counts them off. -/

namespace ComponentAudit

/-- Whether an offset lies in a span. -/
def Span.covers (span : Span) (offset : Nat) : Bool := span.start ≤ offset && offset < span.stop

namespace Markup

/-- Whether an offset lies in none of some spans. -/
def isKept (removed : List Span) (offset : Nat) : Bool := !removed.any (·.covers offset)

/-- The offsets of a text of a given length that lie in none of the removed spans. -/
def uncovered (removed : List Span) (length : Nat) : List Nat :=
  (List.range length).filter (isKept removed)

/-- The offsets that pieces were taken from. -/
def offsetsOf (pieces : List (Segment × Text)) : List Nat :=
  pieces.flatMap fun piece => List.range' piece.1.sourceStart piece.2.length

theorem isKept_cons (span : Span) (spans : List Span) (offset : Nat) :
    isKept (span :: spans) offset = (!span.covers offset && isKept spans offset) := by
  simp only [isKept, List.any_cons, Bool.not_or]

theorem isKept_of_lt {spans : List Span} {offset : Nat} (h : ∀ span ∈ spans, offset < span.start) :
    isKept spans offset = true := by
  rw [isKept, Bool.not_eq_true', List.any_eq_false]
  intro span hspan
  have hlt := h span hspan
  simp only [Span.covers, Bool.and_eq_true, decide_eq_true_eq]
  omega

theorem isKept_perm {spans removed : List Span} (h : spans.Perm removed) (offset : Nat) :
    isKept spans offset = isKept removed offset := by
  rw [isKept, isKept, h.any_eq]

/-- Counting from one offset to another can stop over in between. -/
theorem range'_split {start middle stop : Nat} (hstart : start ≤ middle) (hstop : middle ≤ stop) :
    List.range' start (stop - start) =
      List.range' start (middle - start) ++ List.range' middle (stop - middle) := by
  obtain ⟨front, rfl⟩ := Nat.exists_eq_add_of_le hstart
  obtain ⟨back, rfl⟩ := Nat.exists_eq_add_of_le hstop
  rw [Nat.add_sub_cancel_left, Nat.add_sub_cancel_left, List.range'_append_1, Nat.add_assoc,
    Nat.add_sub_cancel_left]

/-! ## The offsets of the pieces -/

section Offsets

variable {source : Text} {cursor size : Nat} {span : Span} {spans : List Span}

/-- From inside or behind a span, what is kept starts at its end. -/
theorem filter_isKept_cons {length : Nat} (hstart : span.start ≤ cursor) (hstop : span.stop ≤ length) :
    (List.range' cursor (length - cursor)).filter (isKept (span :: spans)) =
      (List.range' (max cursor span.stop) (length - max cursor span.stop)).filter (isKept spans) := by
  have hbehind : ∀ start count, span.stop ≤ start →
      (List.range' start count).filter (isKept (span :: spans)) =
        (List.range' start count).filter (isKept spans) := by
    intro start count hle
    refine List.filter_congr fun offset hoffset => ?_
    have hmem := List.mem_range'_1.mp hoffset
    have hout : span.covers offset = false := by
      simp only [Span.covers, Bool.and_eq_false_iff, decide_eq_false_iff_not]
      omega
    rw [isKept_cons, hout, Bool.not_false, Bool.true_and]
  by_cases hpassed : span.stop ≤ cursor
  · rw [Nat.max_eq_left hpassed, hbehind cursor _ hpassed]
  · have hinside : (List.range' cursor (span.stop - cursor)).filter (isKept (span :: spans)) = [] := by
      refine List.filter_eq_nil_iff.mpr fun offset hoffset => ?_
      have hmem := List.mem_range'_1.mp hoffset
      have hin : span.covers offset = true := by
        simp only [Span.covers, Bool.and_eq_true, decide_eq_true_eq]
        omega
      rw [isKept_cons, hin]
      exact Bool.false_ne_true
    have hle : cursor ≤ span.stop := by omega
    rw [range'_split hle hstop, List.filter_append, hinside, List.nil_append,
      hbehind span.stop _ (Nat.le_refl _), Nat.max_eq_right hle]

/-- In front of all spans everything is kept. -/
theorem filter_isKept_before {stop : Nat} (h : ∀ span ∈ spans, stop ≤ span.start) :
    (List.range' cursor (stop - cursor)).filter (isKept spans) = List.range' cursor (stop - cursor) := by
  refine List.filter_eq_self.mpr fun offset hoffset => isKept_of_lt fun span hspan => ?_
  have hmem := List.mem_range'_1.mp hoffset
  have hle := h span hspan
  omega

/-- The pieces behind a cursor stand at the offsets that are kept there. -/
theorem offsetsOf_piecesFrom (hfits : ∀ span ∈ spans, Fits span source.length)
    (hsorted : spans.Pairwise fun a b => a.start ≤ b.start) :
    offsetsOf (piecesFrom source cursor size spans) =
      (List.range' cursor (source.length - cursor)).filter (isKept spans) := by
  induction spans generalizing cursor size with
  | nil =>
    rw [filter_isKept_before (by simp)]
    unfold piecesFrom
    split
    · simp [offsetsOf]
    · have hnone : source.length - cursor = 0 := by omega
      rw [hnone]
      rfl
  | cons span spans ih =>
    obtain ⟨hfirst, hlater⟩ := List.pairwise_cons.mp hsorted
    obtain ⟨⟨hordered, hinside⟩, hfitsLater⟩ := List.forall_mem_cons.mp hfits
    unfold piecesFrom
    split
    · -- a piece up to the start of the span, which is the first of them
      have hlength := source.length_slice cursor (show span.start ≤ source.length by omega)
      have hbefore : ∀ other ∈ span :: spans, span.start ≤ other.start := by
        intro other hother
        rcases List.mem_cons.mp hother with rfl | hother
        · exact Nat.le_refl _
        · exact hfirst other hother
      have hreach : max cursor span.stop = max span.start span.stop := by omega
      have hreached : cursor ≤ span.start := by omega
      rw [range'_split hreached (by omega), List.filter_append, filter_isKept_before hbefore,
        filter_isKept_cons (Nat.le_refl _) hinside, ← hreach, ← ih hfitsLater hlater, offsetsOf,
        List.flatMap_cons, hlength]
      rfl
    · rw [ih hfitsLater hlater, filter_isKept_cons (by omega) hinside]

/-- A piece is the source between its ends. -/
theorem piece_eq_slice (hfits : ∀ span ∈ spans, Fits span source.length) {kept : Segment × Text}
    (h : kept ∈ piecesFrom source cursor size spans) :
    kept.2.map some = (List.range' kept.1.sourceStart kept.2.length).map (source[·]?) := by
  have hslice : ∀ start stop, stop ≤ source.length → (source.slice start stop).map some =
      (List.range' start (source.slice start stop).length).map (source[·]?) := by
    intro start stop hstop
    rw [Text.length_slice start hstop]
    refine List.ext_getElem? fun n => ?_
    by_cases hn : n < stop - start
    · rw [List.getElem?_map, List.getElem?_map, List.getElem?_range' hn, Text.slice,
        List.getElem?_take_of_lt hn, List.getElem?_drop, Option.map_some, Nat.one_mul,
        List.getElem?_eq_getElem (by omega)]
      rfl
    · rw [List.getElem?_eq_none, List.getElem?_eq_none]
      · simp only [List.length_map, List.length_range']
        omega
      · simp only [List.length_map, Text.length_slice start hstop]
        omega
  have hdrop : ∀ start, source.drop start = source.slice start source.length := by
    intro start
    rw [Text.slice, List.take_of_length_le]
    simp
  induction spans generalizing cursor size with
  | nil =>
    unfold piecesFrom at h
    split at h
    · obtain rfl := List.mem_singleton.mp h
      rw [hdrop]
      exact hslice _ _ (Nat.le_refl _)
    · cases h
  | cons span spans ih =>
    obtain ⟨⟨hordered, hinside⟩, hfitsLater⟩ := List.forall_mem_cons.mp hfits
    unfold piecesFrom at h
    split at h
    · rcases List.mem_cons.mp h with rfl | h
      · exact hslice _ _ (by omega)
      · exact ih hfitsLater h
    · exact ih hfitsLater h

end Offsets

/-! ## The map over the pieces -/

section Map

variable {length size cursor : Nat} {first : Segment} {piece : Text} {pieces : List (Segment × Text)}

/-- Counting on from a segment counts off the offsets of its piece. -/
theorem map_range' {start count base : Nat} {f : Nat → Nat}
    (h : ∀ offset, start ≤ offset → offset < start + count → f offset = base + (offset - start)) :
    (List.range' start count).map f = List.range' base count := by
  refine List.ext_getElem? fun n => ?_
  by_cases hn : n < count
  · rw [List.getElem?_map, List.getElem?_range' hn, List.getElem?_range' hn, Option.map_some,
      Nat.one_mul, h (start + n) (by omega) (by omega), Nat.add_sub_cancel_left]
  · rw [List.getElem?_eq_none, List.getElem?_eq_none]
    · simp only [List.length_range']
      omega
    · simp only [List.length_map, List.length_range']
      omega

theorem Laid.map_sourceIndex (text : Text) (h : Laid length size cursor ((first, piece) :: pieces)) :
    (List.range' size (piece.length + (pieces.flatMap (·.2)).length)).map
        (⟨text, first, pieces.map (·.1)⟩ : Markup).sourceIndex =
      offsetsOf ((first, piece) :: pieces) := by
  induction pieces generalizing size cursor first piece with
  | nil =>
    obtain ⟨rfl, -⟩ := h
    rw [offsetsOf, List.flatMap_singleton]
    exact map_range' fun offset hle _ => sourceIndex_last text hle
  | cons following pieces ih =>
    obtain ⟨next, inNext⟩ := following
    obtain ⟨rfl, -, -, hrest⟩ := h
    have ⟨hstart, _⟩ := hrest
    have hhead : (List.range' first.markupStart piece.length).map
        (⟨text, first, next :: pieces.map (·.1)⟩ : Markup).sourceIndex =
          List.range' first.sourceStart piece.length :=
      map_range' fun offset hle hlt => sourceIndex_first text hle (by omega)
    have htail : (List.range' (first.markupStart + piece.length)
        (inNext.length + (pieces.flatMap (·.2)).length)).map
          (⟨text, first, next :: pieces.map (·.1)⟩ : Markup).sourceIndex =
        offsetsOf ((next, inNext) :: pieces) := by
      rw [← ih hrest]
      refine List.map_congr_left fun offset hoffset => sourceIndex_next text ?_
      have hmem := List.mem_range'_1.mp hoffset
      omega
    rw [List.flatMap_cons, List.length_append, ← List.range'_append_1, List.map_append, List.map_cons,
      hhead, htail]
    rfl

end Map

/-! ## The whole markup -/

section Removed

variable (source : Text) {removed : List Span} (h : ∀ span ∈ removed, Fits span source.length)
include h

theorem offsetsOf_sorted :
    offsetsOf (piecesFrom source 0 0 (removed.mergeSort spanLe)) = uncovered removed source.length := by
  have hperm := List.mergeSort_perm removed spanLe
  rw [offsetsOf_piecesFrom (fun span hspan => h span (hperm.mem_iff.mp hspan))
    (pairwise_mergeSort_spanLe removed), uncovered, List.range_eq_range', Nat.sub_zero]
  exact List.filter_congr fun offset _ => isKept_perm hperm offset

/-- The markup reads the source at the kept offsets. -/
theorem text_ofRemoved :
    (ofRemoved source removed).text.map some = (uncovered removed source.length).map (source[·]?) := by
  have hfits : ∀ span ∈ removed.mergeSort spanLe, Fits span source.length :=
    fun span hspan => h span (List.mem_mergeSort.mp hspan)
  have hall : (ofRemoved source removed).text =
      (piecesFrom source 0 0 (removed.mergeSort spanLe)).flatMap (·.2) := by
    unfold ofRemoved
    cases piecesFrom source 0 0 (removed.mergeSort spanLe) <;> rfl
  rw [hall, ← offsetsOf_sorted source h, offsetsOf, List.map_flatMap, List.map_flatMap]
  exact List.flatMap_congr fun kept hkept => piece_eq_slice hfits hkept

/-- The map counts the kept offsets off. -/
theorem map_sourceIndex_ofRemoved :
    (List.range (ofRemoved source removed).text.length).map (ofRemoved source removed).sourceIndex =
      uncovered removed source.length := by
  have hlaid := laid_ofRemoved source h
  rw [← offsetsOf_sorted source h]
  unfold ofRemoved
  cases hpieces : piecesFrom source 0 0 (removed.mergeSort spanLe) with
  | nil => rfl
  | cons piece pieces =>
    rw [hpieces] at hlaid
    rw [List.range_eq_range', List.length_append]
    exact hlaid.map_sourceIndex _

theorem sourceOffset_ofRemoved (offset : Nat) :
    (ofRemoved source removed).sourceOffset offset = (ofRemoved source removed).sourceIndex offset := by
  have hfirst : (ofRemoved source removed).first.markupStart = 0 := by
    have hlaid := laid_ofRemoved source h
    unfold ofRemoved
    cases hpieces : piecesFrom source 0 0 (removed.mergeSort spanLe) with
    | nil => rfl
    | cons piece pieces =>
      rw [hpieces] at hlaid
      exact hlaid.1
  have hle := markupStart_segmentAt_le hfirst offset
  rw [sourceIndex, sourceOffset]
  omega

/-- A markup is the rest of a source: the characters that no removed span covers, in order, with a map
that leads from each of its offsets to where the character stands. -/
structure Complements (markup : Markup) (source : Text) (removed : List Span) : Prop where
  text : markup.text.map some = (uncovered removed source.length).map (source[·]?)
  /-- The offsets of the markup are the ranks of the kept offsets. -/
  offsets : ∀ m < markup.text.length, ∃ p : Nat, markup.sourceOffset m = p ∧
    (uncovered removed source.length)[m]? = some p ∧ source[p]? = markup.text[m]?
  increasing : ∀ m n : Nat, m < n → n < markup.text.length →
    markup.sourceOffset m < markup.sourceOffset n

/-- Whatever spans are removed, in any order, empty, nested or overlapping, the markup is the rest. -/
theorem ofRemoved_complements : (ofRemoved source removed).Complements source removed := by
  have htext := text_ofRemoved source h
  have hmap := map_sourceIndex_ofRemoved source h
  have hoffset := sourceOffset_ofRemoved source h
  refine ⟨htext, fun m hm => ?_, fun m n hlt _ => ?_⟩
  · have hrank : (uncovered removed source.length)[m]? =
        some ((ofRemoved source removed).sourceIndex m) := by
      rw [← hmap, List.getElem?_map, List.getElem?_range hm]
      rfl
    refine ⟨_, hoffset m, hrank, ?_⟩
    have hsame := congrArg (·[m]?) htext
    simp only [List.getElem?_map, hrank, List.getElem?_eq_getElem hm, Option.map_some,
      Option.some.injEq] at hsame
    rw [List.getElem?_eq_getElem hm, hsame]
  · rw [hoffset m, hoffset n]
    exact_mod_cast strictMono_sourceIndex_ofRemoved source h hlt

end Removed

/-- Spans out of order: two that overlap, an empty one inside them, and one at the end. -/
def overlapping : List Span := [⟨5, 7⟩, ⟨1, 3⟩, ⟨2, 2⟩, ⟨2, 4⟩]

theorem ofRemoved_complements_overlapping :
    (∀ span ∈ overlapping, Fits span ("abcdefg" : Text).length) ∧ uncovered overlapping 7 = [0, 4] ∧
      (ofRemoved "abcdefg" overlapping).Complements "abcdefg" overlapping := by
  have hfits : ∀ span ∈ overlapping, Fits span ("abcdefg" : Text).length := by
    simp only [overlapping, List.forall_mem_cons]
    refine ⟨⟨?_, ?_⟩, ⟨?_, ?_⟩, ⟨?_, ?_⟩, ⟨?_, ?_⟩, fun _ hspan => (List.not_mem_nil hspan).elim⟩ <;>
      decide
  exact ⟨hfits, by decide, ofRemoved_complements "abcdefg" hfits⟩

end Markup

end ComponentAudit
