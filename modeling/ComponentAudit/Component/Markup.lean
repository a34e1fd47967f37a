import ComponentAudit.Component.Region

/-!
The markup of a component file: the text with spans removed, and the map from offsets of what is left
to offsets of the whole. The map is kept as segments, each with its start in the markup and its start
in the source.
-/

namespace ComponentAudit

/-- A span of offsets, the end excluded. -/
structure Span where
  start : Nat
  stop : Nat

/-- A stretch of kept text: where it starts in the markup and in the source. -/
structure Segment where
  markupStart : Nat
  sourceStart : Nat

/-- What is left of a source, and where it came from. The first segment starts at markup offset zero,
and the rest follow in order. -/
structure Markup where
  text : Text
  first : Segment
  rest : List Segment

namespace Markup

/-- The order in which spans are removed: by start, then by end. -/
def spanLe (a b : Span) : Bool := a.start < b.start || (a.start == b.start && a.stop ≤ b.stop)

/-- The kept pieces of a source in front of, between and behind spans in order. `cursor` is the offset
up to which the source is done, and `size` the length of the markup so far. -/
def piecesFrom (source : Text) (cursor size : Nat) : List Span → List (Segment × Text)
  | [] => if cursor < source.length then [(⟨size, cursor⟩, source.drop cursor)] else []
  | span :: spans =>
    if cursor < span.start then
      (⟨size, cursor⟩, source.slice cursor span.start) ::
        piecesFrom source (max cursor span.stop) (size + (span.start - cursor)) spans
    else piecesFrom source (max cursor span.stop) size spans

/-- The source without the spans. If nothing is left, offsets count from the end of the last span. -/
def ofRemoved (source : Text) (removed : List Span) : Markup :=
  match piecesFrom source 0 0 (removed.mergeSort spanLe) with
  | [] => ⟨[], ⟨0, removed.foldl (fun reach span => max reach span.stop) 0⟩, []⟩
  | (segment, piece) :: pieces =>
    ⟨piece ++ pieces.flatMap (·.2), segment, pieces.map (·.1)⟩

/-- The last segment that starts at or before a markup offset; the first one for smaller offsets. -/
def segmentAt (markup : Markup) (offset : Int) : Segment :=
  (markup.rest.takeWhile fun segment => segment.markupStart ≤ offset).getLastD markup.first

/-- The source offset of a markup offset. Offsets outside the markup are counted on from its ends. -/
def sourceOffset (markup : Markup) (offset : Int) : Int :=
  let segment := markup.segmentAt offset
  segment.sourceStart + (offset - segment.markupStart)

def sourceIndex (markup : Markup) (offset : Nat) : Nat := (markup.sourceOffset offset).toNat

/-- The markup of a component file: everything outside its script and style elements. -/
def ofRegions (source : Text) (regions : Regions) : Markup :=
  ofRemoved source <|
    (regions.scripts.map (·.span) ++ regions.styles.map (·.span)).map fun span =>
      ⟨span.elementStart, span.elementEnd⟩

end Markup

end ComponentAudit
