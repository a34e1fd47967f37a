import ComponentAudit.Proofs.Style.Pairing
import ComponentAudit.Proofs.Style.Place
import ComponentAudit.Proofs.Text.Slice
import Mathlib.Logic.Function.Iterate

/-! # The walk is recursive descent

`Sheet.walk` works off a stack of open blocks. `Sheet.descend` reads the same text by recursion: on a
brace it reads the block between two offsets first and then goes on behind it. A frame on the stack is
a pending call of that recursion, so a walk that starts with the frame of a block ends as if the block
had been read by recursion and its frame were gone (`walk_cons_eq`). Nothing is assumed of the text:
where the pairs of braces and the ends of segments disagree, both readings cut the block off at the
same offset. -/

namespace ComponentAudit

namespace Sheet

/-! ## What a step can do -/

/-- A frame behind the white space that its body opens with. -/
def Frame.ink (frame : Frame) : Frame :=
  { frame with
    offset := frame.offset + (frame.body.takeWhile isSpace).length
    body := frame.body.dropWhile isSpace }

/-- The frame behind a block whose brace ends `header` and which holds `size` characters. -/
def Frame.behind (frame : Frame) (header rest : Text) (size : Nat) : Frame :=
  { frame with offset := frame.offset + header.length + size + 2, body := rest.drop (size + 1) }

/-- The frame behind a segment and the character that ends it. -/
def Frame.past (frame : Frame) (header rest : Text) : Frame :=
  { frame with offset := frame.offset + header.length + 1, body := rest }

/-- The frames and the sheet that a step can leave behind, and when it does, for a frame whose body
opens with no white space. -/
inductive Outcome (pairs : List (Nat × Nat)) (frame : Frame) (sheet : Sheet) :
    List Frame → Sheet → Prop
  | done (hbody : frame.body = []) : Outcome pairs frame sheet [] sheet
  | last {header : Text} (hbody : frame.body ≠ []) (hsegment : segment frame.body = (header, none)) :
      Outcome pairs frame sheet [] (sheet.addSegment frame header)
  | segment {header rest : Text} {d : Char} (hbody : frame.body ≠ []) (hd : d ≠ '{')
      (hsegment : segment frame.body = (header, some (d, rest))) :
      Outcome pairs frame sheet [frame.past header rest] (sheet.addSegment frame header)
  | skipped {header rest : Text} {size : Nat} (hbody : frame.body ≠ [])
      (hsegment : segment frame.body = (header, some ('{', rest)))
      (hsize : size = insideLength pairs (frame.offset + header.length) rest)
      (henter : enter sheet frame header (rest.take size) = none) :
      Outcome pairs frame sheet [frame.behind header rest size] sheet
  | entered {header rest : Text} {size : Nat} {child : Frame} {opened : Sheet}
      (hbody : frame.body ≠ [])
      (hsegment : segment frame.body = (header, some ('{', rest)))
      (hsize : size = insideLength pairs (frame.offset + header.length) rest)
      (henter : enter sheet frame header (rest.take size) = some (child, opened)) :
      Outcome pairs frame sheet [child, frame.behind header rest size] opened

theorem step_outcome (pairs : List (Nat × Nat)) (frame : Frame) (sheet : Sheet) :
    Outcome pairs frame.ink sheet (step pairs frame sheet).1 (step pairs frame sheet).2 := by
  unfold step
  simp only
  split
  · rename_i hempty
    exact .done (List.isEmpty_iff.mp hempty)
  · rename_i hempty
    have hink : frame.ink.body ≠ [] := fun h => hempty (List.isEmpty_iff.mpr h)
    split
    · rename_i hstop
      exact .last hink (Prod.ext rfl hstop)
    · rename_i rest hstop
      split
      · rename_i child opened henter
        exact .entered hink (Prod.ext rfl hstop) rfl henter
      · rename_i henter
        exact .skipped hink (Prod.ext rfl hstop) rfl henter
    · rename_i d rest hd hstop
      exact .segment hink hd (Prod.ext rfl hstop)

/-! ## Recursive descent -/

section Descent

variable (masked : Text)

/-- The first offset from `position` on that is not white space, or `stop`. -/
def inkFrom (position stop : Nat) : Nat :=
  position + ((masked.slice position stop).takeWhile isSpace).length

/-- The offset of the next delimiter in front of `stop`, and the delimiter; without one, `stop`. -/
def nextDelimiter (start stop : Nat) : Nat × Option Char :=
  let found := segment (masked.slice start stop)
  (start + found.1.length, found.2.map (·.1))

/-- Where the block behind a brace ends: at its closing brace, but not behind `stop`. -/
def blockEnd (delimiter stop : Nat) : Nat :=
  min (((bracePairs masked).lookup delimiter).getD stop) stop

theorem lt_blockEnd {delimiter stop : Nat} (h : delimiter < stop) :
    delimiter < blockEnd masked delimiter stop := by
  unfold blockEnd
  cases hclose : (bracePairs masked).lookup delimiter with
  | none => simpa using h
  | some closer =>
    have hlt := (lookup_bracePairs_iff.mp hclose).lt
    rw [Option.getD_some]
    omega

theorem blockEnd_le (delimiter stop : Nat) : blockEnd masked delimiter stop ≤ stop :=
  Nat.min_le_right _ _

variable {masked} in
theorem nextDelimiter_lt {start stop : Nat} {d : Char}
    (h : (nextDelimiter masked start stop).2 = some d) :
    start ≤ (nextDelimiter masked start stop).1 ∧ (nextDelimiter masked start stop).1 < stop := by
  obtain ⟨⟨e, rest⟩, hstop, -⟩ := Option.map_eq_some_iff.mp h
  have hlength := length_segmentFrom none 0 _ e rest hstop
  have hle : (masked.slice start stop).length ≤ stop - start := List.length_take_le _ _
  change start ≤ start + (segmentFrom none 0 (masked.slice start stop)).1.length ∧
    start + (segmentFrom none 0 (masked.slice start stop)).1.length < stop
  omega

/-- Reads the block of a masked text that stands between two offsets, under a condition and inside the
rules at `enclosing`: segment by segment, and a block inside it before what follows that block. -/
def descend (position stop : Nat) (context : Text) (enclosing : List Nat) (sheet : Sheet) : Sheet :=
  let start := inkFrom masked position stop
  if hstart : stop ≤ start then sheet
  else
    let delimiter := (nextDelimiter masked start stop).1
    let header := masked.slice start delimiter
    if hopen : (nextDelimiter masked start stop).2 = some '{' then
      let close := blockEnd masked delimiter stop
      let title := Text.squeeze header
      let read :=
        if title.isEmpty then sheet
        else if title.head? == some '@' then
          if skippedAtRules.contains (atRuleName title) then sheet
          else
            let nested := if conditionalAtRules.contains (atRuleName title) then title else context
            descend (delimiter + 1) close nested enclosing sheet
        else
          let rule : Rule := {
            selectorText := title, rawText := Text.trimRight header, offset := start
            context, enclosing }
          descend (delimiter + 1) close context (sheet.rules.length :: enclosing) (sheet.addRule rule)
      descend (close + 1) stop context enclosing read
    else
      descend (delimiter + 1) stop context enclosing
        (sheet.addSegment ⟨start, masked.slice start stop, context, enclosing⟩ header)
termination_by stop - position
decreasing_by
  all_goals
    have hink : position ≤ start := Nat.le_add_right _ _
    have hle : start ≤ delimiter := Nat.le_add_right _ _
  iterate 2
    change close - (delimiter + 1) < stop - position
    have hclose : close ≤ stop := blockEnd_le masked delimiter stop
    omega
  · change stop - (close + 1) < stop - position
    have hclose : delimiter < close := lt_blockEnd masked (nextDelimiter_lt hopen).2
    omega
  · change stop - (delimiter + 1) < stop - position
    omega

end Descent

section Refinement

variable {masked : Text} {position start stop : Nat} {context : Text} {enclosing : List Nat}
  {sheet : Sheet}

theorem descend_of_le (h : stop ≤ position) :
    descend masked position stop context enclosing sheet = sheet := by
  have hink : position ≤ inkFrom masked position stop := Nat.le_add_right _ _
  rw [descend, dif_pos (Nat.le_trans h hink)]

/-- The frame of a block behind the white space it opens with is the frame of a shorter block. -/
theorem ink_slice :
    Frame.ink ⟨position, masked.slice position stop, context, enclosing⟩ =
      ⟨inkFrom masked position stop, masked.slice (inkFrom masked position stop) stop, context,
        enclosing⟩ := by
  rw [Frame.ink, ← Text.drop_length_takeWhile, Text.drop_slice]
  rfl

/-- The segment that a block opens with stands between its start and the next delimiter. -/
theorem segment_slice (hstart : start ≤ stop) {header : Text} {ending : SegmentEnd}
    (h : segment (masked.slice start stop) = (header, ending)) :
    nextDelimiter masked start stop = (start + header.length, ending.map (·.1)) ∧
      masked.slice start (start + header.length) = header ∧
      ∀ d rest, ending = some (d, rest) →
        start + header.length < stop ∧ rest = masked.slice (start + header.length + 1) stop := by
  have happend := segmentFrom_append_stop none 0 (masked.slice start stop)
  rw [← segment, h] at happend
  dsimp only at happend
  have hle : (masked.slice start stop).length ≤ stop - start := List.length_take_le _ _
  have hlength := congrArg List.length happend
  rw [List.length_append] at hlength
  refine ⟨by rw [nextDelimiter, h], ?_, ?_⟩
  · have htake := @Text.take_slice masked start (start + header.length) stop (by omega)
    rw [← htake, Nat.add_sub_cancel_left, ← happend, List.take_left]
  · rintro d rest rfl
    rw [Option.elim_some, List.length_cons] at hlength
    refine ⟨by omega, ?_⟩
    rw [Nat.add_assoc, ← Text.drop_slice, ← happend]
    simp

/-- The walk measures a block where the recursion looks up its end. -/
theorem insideLength_slice {delimiter : Nat} (hstop : stop ≤ masked.length) (h : delimiter < stop) :
    insideLength (bracePairs masked) delimiter (masked.slice (delimiter + 1) stop) =
      blockEnd masked delimiter stop - (delimiter + 1) := by
  rw [insideLength, blockEnd, Text.length_slice _ hstop]
  cases hclose : (bracePairs masked).lookup delimiter with
  | none =>
    simp only [Option.getD_none]
    omega
  | some closer =>
    have hlt := (lookup_bracePairs_iff.mp hclose).lt
    simp only [Option.getD_some]
    omega

/-- The frames of a block and of what follows it are those of its two parts of the text. -/
theorem block_slice (context : Text) (enclosing : List Nat) {header : Text} {size : Nat}
    (hstop : stop ≤ masked.length)
    (hdelimiter : start + header.length < stop)
    (hsize : size = insideLength (bracePairs masked) (start + header.length)
      (masked.slice (start + header.length + 1) stop)) :
    (masked.slice (start + header.length + 1) stop).take size =
        masked.slice (start + header.length + 1) (blockEnd masked (start + header.length) stop) ∧
      Frame.behind ⟨start, masked.slice start stop, context, enclosing⟩ header
          (masked.slice (start + header.length + 1) stop) size =
        ⟨blockEnd masked (start + header.length) stop + 1,
          masked.slice (blockEnd masked (start + header.length) stop + 1) stop, context,
          enclosing⟩ := by
  have hclose := lt_blockEnd masked hdelimiter
  have hle := blockEnd_le masked (start + header.length) stop
  rw [insideLength_slice hstop hdelimiter] at hsize
  have hoffset : start + header.length + size + 2 =
      blockEnd masked (start + header.length) stop + 1 := by omega
  have hdrop : start + header.length + 1 + (size + 1) =
      blockEnd masked (start + header.length) stop + 1 := by omega
  constructor
  · rw [hsize]
    exact Text.take_slice hle
  · rw [Frame.behind, Text.drop_slice, hdrop, hoffset]

section Segment

variable (hink : inkFrom masked position stop = start) (hstart : start < stop)
include hink hstart

theorem descend_segment {delimiter : Nat} {ending : Option Char} {header : Text}
    (hnext : nextDelimiter masked start stop = (delimiter, ending)) (hending : ending ≠ some '{')
    (hheader : masked.slice start delimiter = header) :
    descend masked position stop context enclosing sheet =
      descend masked (delimiter + 1) stop context enclosing
        (sheet.addSegment ⟨start, masked.slice start stop, context, enclosing⟩ header) := by
  rw [descend, hink, dif_neg (Nat.not_le.mpr hstart)]
  simp only [hnext, hheader, hending, dite_false]

variable {delimiter : Nat} {header body inside : Text}
  (hnext : nextDelimiter masked start stop = (delimiter, some '{'))
  (hheader : masked.slice start delimiter = header)
include hnext hheader

/-- A block that is not entered is passed over. -/
theorem descend_skipped
    (henter : enter sheet ⟨start, body, context, enclosing⟩ header inside = none) :
    descend masked position stop context enclosing sheet =
      descend masked (blockEnd masked delimiter stop + 1) stop context enclosing sheet := by
  rw [descend, hink, dif_neg (Nat.not_le.mpr hstart)]
  simp only [hnext, hheader, dite_true]
  unfold enter at henter
  simp only at henter
  split at henter
  · rename_i htitle
    rw [if_pos htitle]
  · rename_i htitle
    split at henter
    · rename_i hat
      split at henter
      · rename_i hskip
        rw [if_neg htitle, if_pos hat, if_pos hskip]
      · cases henter
    · cases henter

/-- A block that is entered is read first, under the condition and inside the rules that its frame
has. -/
theorem descend_entered {child : Frame} {opened : Sheet}
    (henter : enter sheet ⟨start, body, context, enclosing⟩ header inside = some (child, opened)) :
    child = ⟨start + header.length + 1, inside, child.context, child.enclosing⟩ ∧
      descend masked position stop context enclosing sheet =
        descend masked (blockEnd masked delimiter stop + 1) stop context enclosing
          (descend masked (delimiter + 1) (blockEnd masked delimiter stop) child.context
            child.enclosing opened) := by
  rw [descend, hink, dif_neg (Nat.not_le.mpr hstart)]
  simp only [hnext, hheader, dite_true]
  unfold enter at henter
  simp only at henter
  split at henter
  · cases henter
  · rename_i htitle
    split at henter
    · rename_i hat
      split at henter
      · cases henter
      · rename_i hskip
        obtain ⟨rfl, rfl⟩ := Prod.mk.inj (Option.some.inj henter)
        rw [if_neg htitle, if_pos hat, if_neg hskip]
        exact ⟨rfl, rfl⟩
    · rename_i hat
      obtain ⟨rfl, rfl⟩ := Prod.mk.inj (Option.some.inj henter)
      rw [if_neg htitle, if_neg hat]
      exact ⟨rfl, rfl⟩

end Segment

/-- The frame of a block is worked off as the recursion reads it, whatever lies below it. -/
theorem walk_cons_eq (hstop : stop ≤ masked.length) (frames : List Frame) :
    walk (bracePairs masked) (⟨position, masked.slice position stop, context, enclosing⟩ :: frames)
        sheet =
      walk (bracePairs masked) frames (descend masked position stop context enclosing sheet) := by
  -- every frame that a step leaves behind spans less of the text
  induction hlength : stop - position using Nat.strongRecOn
    generalizing position stop context enclosing sheet frames with
  | ind length ih =>
    have houtcome := step_outcome (bracePairs masked)
      ⟨position, masked.slice position stop, context, enclosing⟩ sheet
    rw [ink_slice] at houtcome
    rw [walk]
    generalize step (bracePairs masked) ⟨position, masked.slice position stop, context, enclosing⟩
      sheet = left at houtcome ⊢
    obtain ⟨next, added⟩ := left
    dsimp only at houtcome ⊢
    have hle : position ≤ inkFrom masked position stop := Nat.le_add_right _ _
    generalize hink : inkFrom masked position stop = start at hle houtcome
    have hslice := Text.length_slice start hstop
    have hbefore : masked.slice start stop ≠ [] → start < stop := by
      intro hne
      have hpos := List.length_pos_iff.mpr hne
      omega
    cases houtcome with
    | done hbody =>
      have hend : stop ≤ start := by
        rw [show masked.slice start stop = [] from hbody] at hslice
        exact Nat.sub_eq_zero_iff_le.mp hslice.symm
      rw [descend, hink, dif_pos hend, List.nil_append]
    | @last header hbody hsegment =>
      have hstart := hbefore hbody
      obtain ⟨hnext, hheader, -⟩ := segment_slice (Nat.le_of_lt hstart) hsegment
      have hend : stop ≤ start + header.length + 1 := by
        have hwhole := segmentFrom_append_stop none 0 (masked.slice start stop)
        rw [← segment, show segment (masked.slice start stop) = (header, none) from hsegment,
          Option.elim_none, List.append_nil] at hwhole
        have := congrArg List.length hwhole
        dsimp only at this
        omega
      rw [descend_segment hink hstart hnext (by simp) hheader, descend_of_le hend, List.nil_append]
    | @segment header rest d hbody hd hsegment =>
      have hstart := hbefore hbody
      obtain ⟨hnext, hheader, hrest⟩ := segment_slice (Nat.le_of_lt hstart) hsegment
      obtain ⟨-, rfl⟩ := hrest d rest rfl
      rw [descend_segment hink hstart hnext (by simpa using hd) hheader]
      refine ih _ ?_ hstop frames rfl
      dsimp only
      omega
    | @skipped header rest size hbody hsegment hsize henter =>
      have hstart := hbefore hbody
      obtain ⟨hnext, hheader, hrest⟩ := segment_slice (Nat.le_of_lt hstart) hsegment
      obtain ⟨hdelimiter, rfl⟩ := hrest '{' rest rfl
      have hclose := lt_blockEnd masked hdelimiter
      obtain ⟨-, hbehind⟩ := block_slice context enclosing hstop hdelimiter hsize
      rw [descend_skipped hink hstart hnext hheader henter, hbehind]
      exact ih _ (by omega) hstop frames rfl
    | @entered header rest size child opened hbody hsegment hsize henter =>
      have hstart := hbefore hbody
      obtain ⟨hnext, hheader, hrest⟩ := segment_slice (Nat.le_of_lt hstart) hsegment
      obtain ⟨hdelimiter, rfl⟩ := hrest '{' rest rfl
      have hclose := lt_blockEnd masked hdelimiter
      have hend := blockEnd_le masked (start + header.length) stop
      obtain ⟨hinside, hbehind⟩ := block_slice context enclosing hstop hdelimiter hsize
      obtain ⟨hchild, hread⟩ := descend_entered hink hstart hnext hheader henter
      rw [hread, hbehind, hchild, hinside, List.cons_append,
        ih _ (by omega) (Nat.le_trans hend hstop) _ rfl]
      exact ih _ (by omega) hstop frames rfl

end Refinement

/-! ## The loop -/

/-- One turn of the loop over a stack: the frames that a step leaves take the place of the top one. -/
def turn (pairs : List (Nat × Nat)) : List Frame × Sheet → List Frame × Sheet
  | ([], sheet) => ([], sheet)
  | (frame :: frames, sheet) => ((step pairs frame sheet).1 ++ frames, (step pairs frame sheet).2)

theorem exists_turns (pairs : List (Nat × Nat)) (frames : List Frame) (sheet : Sheet) :
    ∃ turns ≤ weight frames, (turn pairs)^[turns] (frames, sheet) = ([], walk pairs frames sheet) := by
  fun_induction walk pairs frames sheet with
  | case1 sheet => exact ⟨0, Nat.zero_le _, rfl⟩
  | case2 sheet frame frames ih =>
    obtain ⟨turns, hle, hturns⟩ := ih
    have hlighter := weight_step_lt pairs frame sheet
    rw [weight_append] at hle
    refine ⟨turns + 1, ?_, ?_⟩
    · rw [weight]
      omega
    · rw [Function.iterate_succ_apply]
      exact hturns

/-- Reading a style text is recursive descent over its masked form. The loop that does without
recursion empties its stack after at most one turn for each character and one more. -/
theorem ofText_eq_descend (source : Text) :
    let masked := Comment.maskStyle source
    ofText source = descend masked 0 masked.length [] [] {} ∧
      ∃ turns ≤ masked.length + 1,
        (turn (bracePairs masked))^[turns] ([⟨0, masked, [], []⟩], {}) = ([], ofText source) := by
  intro masked
  constructor
  · have hwalk : walk (bracePairs masked) [⟨0, masked.slice 0 masked.length, [], []⟩] {} = _ :=
      walk_cons_eq (Nat.le_refl _) []
    rw [Text.slice_zero_length] at hwalk
    rw [ofText, hwalk, walk]
  · obtain ⟨turns, hle, hturns⟩ := exists_turns (bracePairs masked) [⟨0, masked, [], []⟩] {}
    exact ⟨turns, hle, hturns⟩

end Sheet

end ComponentAudit
