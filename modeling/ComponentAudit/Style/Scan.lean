import ComponentAudit.Style.Sheet
import ComponentAudit.Text.Comment

/-!
Reading a style text. The text is masked, its braces are paired once, and the blocks are then walked
with a stack of frames, one frame for each block that is still open, so that nesting costs no depth.
Each step takes one segment off the top frame; `weight_step_lt` bounds the walk.
-/

namespace ComponentAudit.Sheet

def isStyleQuote (c : Char) : Bool := c == '\'' || c == '"'

/-- The pairs of an opening brace and the brace that closes it, for text from `offset` on; `openers`
are the braces still open, the last one first. A closing brace without partner is passed over. -/
def bracePairsFrom (quote : Option Char) (openers : List Nat) (offset : Nat) :
    Text → List (Nat × Nat)
  | [] => []
  | c :: rest =>
    match quote with
    | some q =>
      if c == '\\' then
        match rest with
        | [] => []
        | _ :: rest => bracePairsFrom quote openers (offset + 2) rest
      else bracePairsFrom (if c == q then none else some q) openers (offset + 1) rest
    | none =>
      if isStyleQuote c then bracePairsFrom (some c) openers (offset + 1) rest
      else if c == '{' then bracePairsFrom none (offset :: openers) (offset + 1) rest
      else if c == '}' then
        match openers with
        | [] => bracePairsFrom none [] (offset + 1) rest
        | opener :: openers =>
          (opener, offset) :: bracePairsFrom none openers (offset + 1) rest
      else bracePairsFrom none openers (offset + 1) rest

/-- The brace pairs of a text, in the order in which they close. -/
def bracePairs (t : Text) : List (Nat × Nat) := bracePairsFrom none [] 0 t

/-- What ends a segment: nothing, or a delimiter with the text behind it. -/
abbrev SegmentEnd := Option (Char × Text)

/-- The text up to the next `{`, `;` or `}` outside quotes and brackets. -/
def segmentFrom (quote : Option Char) (depth : Nat) : Text → Text × SegmentEnd
  | [] => ([], none)
  | c :: rest =>
    match quote with
    | some q =>
      if c == '\\' then
        match rest with
        | [] => ([c], none)
        | d :: rest =>
          let (segment, stop) := segmentFrom quote depth rest
          (c :: d :: segment, stop)
      else
        let (segment, stop) := segmentFrom (if c == q then none else some q) depth rest
        (c :: segment, stop)
    | none =>
      if depth == 0 && (c == '{' || c == ';' || c == '}') then ([], some (c, rest))
      else
        let (segment, stop) :=
          if isStyleQuote c then segmentFrom (some c) depth rest
          else if c == '(' || c == '[' then segmentFrom none (depth + 1) rest
          else if c == ')' || c == ']' then segmentFrom none (depth - 1) rest
          else segmentFrom none depth rest
        (c :: segment, stop)

def segment (body : Text) : Text × SegmentEnd := segmentFrom none 0 body

theorem length_segmentFrom (quote : Option Char) (depth : Nat) (body : Text) :
    ∀ d rest, (segmentFrom quote depth body).2 = some (d, rest) →
      (segmentFrom quote depth body).1.length + 1 + rest.length = body.length := by
  fun_induction segmentFrom quote depth body <;> grind

/-- A block that is still open: the rest of its body, where that starts, the condition it stands under
and the rules around it, nearest first. -/
structure Frame where
  offset : Nat
  body : Text
  context : Text
  enclosing : List Nat

/-- What the walk still has to do for a frame. -/
def Frame.weight (frame : Frame) : Nat := frame.body.length + 1

def weight : List Frame → Nat
  | [] => 0
  | frame :: frames => frame.weight + weight frames

theorem weight_append (frames more : List Frame) :
    weight (frames ++ more) = weight frames + weight more := by
  induction frames with
  | nil => simp [weight]
  | cons frame frames ih => simp only [List.cons_append, weight, ih, Nat.add_assoc]

/-- Reads a segment that no block follows: an at-rule statement, or a declaration if a rule is
around it. -/
def addSegment (sheet : Sheet) (frame : Frame) (segment : Text) : Sheet :=
  let prelude := Text.trim segment
  if prelude.head? == some '@' then
    sheet.addStatement ⟨atRuleName prelude, prelude, frame.offset⟩
  else
    match frame.enclosing, Declaration.ofSegment? frame.offset segment with
    | parent :: _, some declaration => sheet.addDeclaration parent declaration
    | _, _ => sheet

/-- Enters a block with the given header, if its contents count: the frame for its body and the sheet
with its rule. -/
def enter (sheet : Sheet) (frame : Frame) (header : Text) (inside : Text) : Option (Frame × Sheet) :=
  let title := Text.squeeze header
  let offset := frame.offset + header.length + 1
  if title.isEmpty then none
  else if title.head? == some '@' then
    let name := atRuleName title
    if skippedAtRules.contains name then none
    else
      let context := if conditionalAtRules.contains name then title else frame.context
      some (⟨offset, inside, context, frame.enclosing⟩, sheet)
  else
    let rule : Rule := {
      selectorText := title, rawText := Text.trimRight header, offset := frame.offset
      context := frame.context, enclosing := frame.enclosing }
    some (⟨offset, inside, frame.context, sheet.rules.length :: frame.enclosing⟩,
      sheet.addRule rule)

/-- The number of characters of `rest` inside the block whose brace stands at `opener`; a block whose
brace is never closed, or only behind `rest`, takes all of it. -/
def insideLength (pairs : List (Nat × Nat)) (opener : Nat) (rest : Text) : Nat :=
  match pairs.lookup opener with
  | some closer => min (closer - opener - 1) rest.length
  | none => rest.length

/-- Takes one segment off a frame: the frames that replace it, and the sheet with what was read. -/
def step (pairs : List (Nat × Nat)) (frame : Frame) (sheet : Sheet) : List Frame × Sheet :=
  let frame := { frame with
    offset := frame.offset + (frame.body.takeWhile isSpace).length
    body := frame.body.dropWhile isSpace }
  if frame.body.isEmpty then ([], sheet)
  else
    let (header, stop) := segment frame.body
    match stop with
    | none => ([], sheet.addSegment frame header)
    | some ('{', rest) =>
      let opener := frame.offset + header.length
      let size := insideLength pairs opener rest
      let resume := { frame with offset := opener + size + 2, body := rest.drop (size + 1) }
      match enter sheet frame header (rest.take size) with
      | some (child, sheet) => ([child, resume], sheet)
      | none => ([resume], sheet)
    | some (_, rest) =>
      ([{ frame with offset := frame.offset + header.length + 1, body := rest }],
        sheet.addSegment frame header)

theorem enter_eq_some {sheet : Sheet} {frame child : Frame} {header inside : Text}
    {sheet' : Sheet} (h : enter sheet frame header inside = some (child, sheet')) :
    0 < header.length ∧ child.body = inside := by
  unfold enter at h
  simp only at h
  split at h
  · exact absurd h (by simp)
  · rename_i hne
    have hpos : 0 < header.length := by
      cases header with
      | nil => simp [Text.squeeze, Text.words, Text.join] at hne
      | cons c rest => simp
    split at h
    · split at h
      · exact absurd h (by simp)
      · simp only [Option.some.injEq, Prod.mk.injEq] at h
        exact ⟨hpos, by rw [← h.1]⟩
    · simp only [Option.some.injEq, Prod.mk.injEq] at h
      exact ⟨hpos, by rw [← h.1]⟩

theorem weight_step_lt (pairs : List (Nat × Nat)) (frame : Frame) (sheet : Sheet) :
    weight (step pairs frame sheet).1 < frame.weight := by
  have hdrop := Text.length_dropWhile_le isSpace frame.body
  unfold step
  simp only
  split
  · simp [weight, Frame.weight]
  · split
    · simp [weight, Frame.weight]
    · rename_i rest hstop
      have hlen := length_segmentFrom none 0 (frame.body.dropWhile isSpace) _ _ hstop
      split
      · rename_i child sheet' henter
        obtain ⟨hpos, hbody⟩ := enter_eq_some henter
        have htake := List.length_take_le
          (insideLength pairs (frame.offset + (frame.body.takeWhile isSpace).length +
            (segment (frame.body.dropWhile isSpace)).1.length) rest) rest
        simp only [weight, Frame.weight, hbody, List.length_take, List.length_drop]
        simp only [segment] at *
        omega
      · simp only [weight, Frame.weight, List.length_drop]
        simp only [segment] at *
        omega
    · rename_i rest _ hstop
      have hlen := length_segmentFrom none 0 (frame.body.dropWhile isSpace) _ _ hstop
      simp only [weight, Frame.weight]
      simp only [segment] at *
      omega

/-- Walks a stack of frames to the end. -/
def walk (pairs : List (Nat × Nat)) (frames : List Frame) (sheet : Sheet) : Sheet :=
  match frames with
  | [] => sheet
  | frame :: frames => walk pairs ((step pairs frame sheet).1 ++ frames) (step pairs frame sheet).2
termination_by weight frames
decreasing_by
  have h := weight_step_lt pairs frame sheet
  simp only [weight_append, weight] at h ⊢
  omega

/-- Reads a style text. Every text has a sheet. -/
def ofText (source : Text) : Sheet :=
  let masked := Comment.maskStyle source
  walk (bracePairs masked) [⟨0, masked, [], []⟩] {}

end ComponentAudit.Sheet
