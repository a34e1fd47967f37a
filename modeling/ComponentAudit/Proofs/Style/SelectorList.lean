import ComponentAudit.Proofs.Style.Nesting

/-! # What a selector list loses

A list is cut at its commas outside brackets, and the end of the text counts as a comma. Every piece
in front of such a comma gives its selector, where it stands, and the pieces come one behind the
other. So nothing is lost exactly if the end of the list is outside brackets
(`holdsOnce_iff_bracketDepth`). The header of a rule ends outside brackets for a reader that knows
quotes, but the brackets in quoted texts count for the list: a list is cut short if one of them is
left open. -/

namespace ComponentAudit

namespace Selector

/-! ## One piece -/

/-- The selector of a piece with its offset, unless the piece is blank. -/
def ofPiece? (piece : Text × Nat) : Option (Text × Nat) :=
  if (Text.trim piece.1).isEmpty then none
  else some (Text.trim piece.1, piece.2 + (piece.1.takeWhile isSpace).length)

theorem split_eq (t : Text) : split t = (closedPieces t).filterMap ofPiece? := rfl

/-- Whether a part with an offset holds the character at a place. -/
def holds (place : Nat) (part : Text × Nat) : Bool :=
  decide (part.2 ≤ place) && decide (place < part.2 + part.1.length)

/-- A piece is its selector with white space around it. -/
theorem piece_eq (piece : Text) : ∃ before after, Blank before ∧ Blank after ∧
    before = piece.takeWhile isSpace ∧ piece = before ++ (Text.trim piece ++ after) := by
  obtain ⟨after, hafter, hdrop⟩ := Text.drop_eq_trim_append piece
  rw [Text.drop_length_takeWhile] at hdrop
  refine ⟨_, after, fun c hc => ?_, hafter, rfl, ?_⟩
  · exact List.all_eq_true.mp List.all_takeWhile c hc
  · rw [← hdrop, List.takeWhile_append_dropWhile]

/-- The selector of a piece lies inside it. -/
theorem ofPiece?_within {piece part : Text × Nat} (h : ofPiece? piece = some part) :
    piece.2 ≤ part.2 ∧ part.2 + part.1.length ≤ piece.2 + piece.1.length := by
  obtain ⟨before, after, -, -, hbefore, hpiece⟩ := piece_eq piece.1
  have hlength := congrArg List.length hpiece
  rw [List.length_append, List.length_append] at hlength
  unfold ofPiece? at h
  split at h
  · cases h
  · obtain rfl := Option.some.inj h
    rw [← hbefore]
    dsimp only
    omega

/-- A character of a piece that is not white space lies in its selector. -/
theorem exists_ofPiece? {piece : Text} {place : Nat} {c : Char} (hc : piece[place]? = some c)
    (hspace : isSpace c = false) (offset : Nat) :
    ∃ part, ofPiece? (piece, offset) = some part ∧ holds (offset + place) part = true := by
  obtain ⟨before, after, hblank, hafter, hbefore, hpiece⟩ := piece_eq piece
  have hbehind : before.length ≤ place := by
    by_contra hlt
    rw [hpiece, List.getElem?_append_left (by omega)] at hc
    exact hblank.not_mem hspace (List.mem_of_getElem? hc)
  rw [hpiece, List.getElem?_append_right hbehind] at hc
  have hinside : place - before.length < (Text.trim piece).length := by
    by_contra hle
    rw [List.getElem?_append_right (by omega)] at hc
    exact hafter.not_mem hspace (List.mem_of_getElem? hc)
  have hne : (Text.trim piece).isEmpty = false := by
    rw [List.isEmpty_eq_false_iff, ← List.length_pos_iff]
    omega
  refine ⟨_, if_neg (ne_true_of_eq_false hne), ?_⟩
  rw [holds, ← hbefore, Bool.and_eq_true, decide_eq_true_eq, decide_eq_true_eq]
  dsimp only
  omega

/-! ## All pieces -/

section Pieces

variable {pieces : List Text} {offset : Nat}

/-- The selectors of pieces that a comma lies between, the first of them at an offset. -/
def partsFrom (offset : Nat) (pieces : List Text) : List (Text × Nat) :=
  (withOffsets offset pieces).filterMap ofPiece?

theorem partsFrom_cons (offset : Nat) (piece : Text) (pieces : List Text) :
    partsFrom offset (piece :: pieces) =
      (ofPiece? (piece, offset)).toList ++ partsFrom (offset + piece.length + 1) pieces := by
  rw [partsFrom, withOffsets, List.filterMap_cons]
  cases ofPiece? (piece, offset) <;> rfl

theorem length_join_cons (piece next : Text) (more : List Text) :
    (Text.join [','] (piece :: next :: more)).length =
      piece.length + 1 + (Text.join [','] (next :: more)).length := by
  rw [Text.join_cons_cons, List.length_append, List.length_append]
  rfl

theorem partsFrom_within {part : Text × Nat} (h : part ∈ partsFrom offset pieces) :
    offset ≤ part.2 ∧ part.2 + part.1.length ≤ offset + (Text.join [','] pieces).length := by
  induction pieces generalizing offset with
  | nil => cases h
  | cons piece pieces ih =>
    rw [partsFrom_cons] at h
    rcases List.mem_append.mp h with h | h
    · have hwithin := ofPiece?_within (Option.mem_toList.mp h)
      obtain ⟨tail, htail⟩ := Text.join_cons_eq [','] piece pieces
      rw [htail, List.length_append]
      dsimp only at hwithin
      omega
    · have hwithin := ih h
      cases pieces with
      | nil => cases h
      | cons next more =>
        rw [length_join_cons]
        omega

/-- The selectors stand one behind the other, with something between them. -/
theorem pairwise_partsFrom (offset : Nat) (pieces : List Text) :
    (partsFrom offset pieces).Pairwise fun a b => a.2 + a.1.length < b.2 := by
  induction pieces generalizing offset with
  | nil => exact .nil
  | cons piece pieces ih =>
    rw [partsFrom_cons]
    refine List.pairwise_append.mpr ⟨?_, ih _, fun a ha b hb => ?_⟩
    · cases ofPiece? (piece, offset) with
      | none => exact .nil
      | some part => exact List.pairwise_singleton _ _
    · have hfront := ofPiece?_within (Option.mem_toList.mp ha)
      have hback := partsFrom_within hb
      dsimp only at hfront
      omega

theorem countP_holds_eq_zero {parts : List (Text × Nat)} {place : Nat}
    (h : ∀ part ∈ parts, place < part.2 ∨ part.2 + part.1.length ≤ place) :
    parts.countP (holds place) = 0 := by
  refine List.countP_eq_zero.mpr fun part hpart => ?_
  have hout := h part hpart
  rw [holds, Bool.and_eq_true, decide_eq_true_eq, decide_eq_true_eq]
  omega

/-- The selectors of all pieces hold every character once that is neither white space nor a comma
between pieces. -/
theorem countP_partsFrom {place : Nat} {c : Char} (hc : (Text.join [','] pieces)[place]? = some c)
    (hspace : isSpace c = false) (hcomma : c ≠ ',') :
    (partsFrom offset pieces).countP (holds (offset + place)) = 1 := by
  induction pieces generalizing offset place with
  | nil => cases hc
  | cons piece pieces ih =>
    rw [partsFrom_cons, List.countP_append]
    by_cases hin : place < piece.length
    · have hpiece : piece[place]? = some c := by
        obtain ⟨tail, htail⟩ := Text.join_cons_eq [','] piece pieces
        rwa [htail, List.getElem?_append_left hin] at hc
      obtain ⟨part, hpart, hholds⟩ := exists_ofPiece? hpiece hspace offset
      have hlater : (partsFrom (offset + piece.length + 1) pieces).countP
          (holds (offset + place)) = 0 :=
        countP_holds_eq_zero fun part hpart => .inl (by have := partsFrom_within hpart; omega)
      rw [hpart, hlater, Option.toList_some, List.countP_singleton, if_pos hholds]
    · cases pieces with
      | nil =>
        rw [Text.join_singleton, List.getElem?_eq_none (Nat.le_of_not_lt hin)] at hc
        cases hc
      | cons next more =>
        rw [Text.join_cons_cons, List.append_assoc,
          List.getElem?_append_right (Nat.le_of_not_lt hin)] at hc
        obtain ⟨behind, hbehind⟩ : ∃ behind, place - piece.length = behind + 1 := by
          refine ⟨place - piece.length - 1, ?_⟩
          by_contra hne
          rw [show place - piece.length = 0 by omega] at hc
          exact hcomma (Option.some.inj hc).symm
        rw [hbehind] at hc
        have hfirst : ((ofPiece? (piece, offset)).toList).countP (holds (offset + place)) = 0 :=
          countP_holds_eq_zero fun part hpart => .inr <| by
            have := ofPiece?_within (Option.mem_toList.mp hpart)
            dsimp only at this
            omega
        have hplace : offset + place = offset + piece.length + 1 + behind := by omega
        rw [hfirst, Nat.zero_add, hplace]
        exact ih hc

end Pieces

/-! ## The last piece -/

theorem withOffsets_dropLast (offset : Nat) (front : List Text) (last : Text) :
    (withOffsets offset (front ++ [last])).dropLast = withOffsets offset front := by
  induction front generalizing offset with
  | nil => rfl
  | cons piece front ih =>
    rw [List.cons_append, withOffsets, withOffsets, List.dropLast_cons_of_ne_nil, ih]
    cases front <;> exact List.cons_ne_nil _ _

/-- The last of some pieces is the whole text, or it ends at a depth of brackets. -/
def EndsAt (pieces : List Text) (whole : Text) (depth : Nat) : Prop :=
  ∃ front last, pieces = front ++ [last] ∧ (front = [] → last = whole) ∧
    (front ≠ [] → bracketDepth 0 last = depth)

theorem EndsAt.consHead {pieces : List Text} {whole : Text} {depth : Nat}
    (h : EndsAt pieces whole depth) (c : Char) :
    EndsAt (Text.consHead c pieces) (c :: whole) depth := by
  obtain ⟨front, last, rfl, hone, hmore⟩ := h
  cases front with
  | nil => exact ⟨[], c :: last, rfl, fun _ => by rw [hone rfl], fun h => absurd rfl h⟩
  | cons first front =>
    exact ⟨(c :: first) :: front, last, rfl, fun h => (List.cons_ne_nil _ _ h).elim,
      fun _ => hmore (List.cons_ne_nil _ _)⟩

/-- Every comma that cuts lies outside brackets, so what is open at the end of a list is open at the end
of its last piece. -/
theorem endsAt_splitCommas (depth : Nat) (t : Text) :
    EndsAt (splitCommas depth t) t (bracketDepth depth t) := by
  fun_induction splitCommas depth t with
  | case1 => exact ⟨[], [], rfl, fun _ => rfl, fun h => absurd rfl h⟩
  | case2 depth c rest hopen ih =>
    rw [bracketDepth, if_pos hopen]
    exact ih.consHead c
  | case3 depth c rest hopen hclose ih =>
    rw [bracketDepth, if_neg hopen, if_pos hclose]
    exact ih.consHead c
  | case4 depth c rest hopen hclose hcomma ih =>
    obtain ⟨front, last, heq, hone, hmore⟩ := ih
    obtain ⟨-, rfl⟩ : c = ',' ∧ depth = 0 := by simpa using hcomma
    rw [bracketDepth, if_neg hopen, if_neg hclose, heq]
    refine ⟨[] :: front, last, rfl, fun h => (List.cons_ne_nil _ _ h).elim, fun _ => ?_⟩
    cases front with
    | nil => rw [hone rfl]
    | cons first front => exact hmore (List.cons_ne_nil _ _)
  | case5 depth c rest hopen hclose _ ih =>
    rw [bracketDepth, if_neg hopen, if_neg hclose]
    exact ih.consHead c

/-- A text that leaves a bracket open holds one. -/
theorem exists_bracket_of_lt {depth : Nat} {t : Text} (h : depth < bracketDepth depth t) :
    ∃ c ∈ t, c = '(' ∨ c = '[' := by
  fun_induction bracketDepth depth t with
  | case1 => exact absurd h (Nat.lt_irrefl _)
  | case2 depth c rest hopen _ => exact ⟨c, List.mem_cons_self, by simpa using hopen⟩
  | case3 depth c rest _ _ ih =>
    obtain ⟨d, hd, hbracket⟩ := ih (by omega)
    exact ⟨d, List.mem_cons_of_mem c hd, hbracket⟩
  | case4 depth c rest _ _ ih =>
    obtain ⟨d, hd, hbracket⟩ := ih h
    exact ⟨d, List.mem_cons_of_mem c hd, hbracket⟩

/-! ## Whole lists -/

/-- Every character of a list that is neither white space nor a comma lies in one part, and in no
other. -/
def HoldsOnce (list : Text) (parts : List (Text × Nat)) : Prop :=
  ∀ place c, list[place]? = some c → isSpace c = false → c ≠ ',' → parts.countP (holds place) = 1

/-- The last of some joined pieces stands behind the selectors of the others. -/
theorem exists_front (front : List Text) (last : Text) : ∃ before,
    Text.join [','] (front ++ [last]) = before ++ last ∧
      ∀ part ∈ partsFrom 0 front, part.2 + part.1.length ≤ before.length := by
  by_cases hfront : front = []
  · subst hfront
    exact ⟨[], Text.join_singleton _ _, fun part hpart => by cases hpart⟩
  · refine ⟨Text.join [','] front ++ [','], Text.join_concat _ _ hfront, fun part hpart => ?_⟩
    have hwithin := partsFrom_within hpart
    rw [List.length_append]
    omega

/-- A list loses a selector exactly if a bracket is open at its end. -/
theorem holdsOnce_iff_bracketDepth (t : Text) : HoldsOnce t (split t) ↔ bracketDepth 0 t = 0 := by
  have hjoin := join_splitCommas 0 t
  constructor
  · intro h
    by_contra hopen
    obtain ⟨front, last, heq, hone, hmore⟩ := endsAt_splitCommas 0 t
    have hlast : bracketDepth 0 last = bracketDepth 0 t := by
      by_cases hfront : front = []
      · rw [hone hfront]
      · exact hmore hfront
    have hsplit : split t = partsFrom 0 front := by
      rw [split_eq, closedPieces, if_neg (by simpa using hopen), heq, withOffsets_dropLast, partsFrom]
    obtain ⟨c, hc, hbracket⟩ := exists_bracket_of_lt (by omega : 0 < bracketDepth 0 last)
    obtain ⟨place, hplace⟩ := List.mem_iff_getElem?.mp hc
    obtain ⟨before, hbefore, hwithin⟩ := exists_front front last
    have hbehind : t[before.length + place]? = some c := by
      rw [← hjoin, heq, hbefore, List.getElem?_append_right (Nat.le_add_right _ _),
        Nat.add_sub_cancel_left, hplace]
    have honce := h _ c hbehind (by rcases hbracket with rfl | rfl <;> decide)
      (by rcases hbracket with rfl | rfl <;> decide)
    have hnone : (split t).countP (holds (before.length + place)) = 0 := by
      rw [hsplit]
      exact countP_holds_eq_zero fun part hpart => .inr (by have := hwithin part hpart; omega)
    omega
  · intro hclosed place c hc hspace hcomma
    have hsplit : split t = partsFrom 0 (splitCommas 0 t) := by
      rw [split_eq, closedPieces, if_pos (by simpa using hclosed), partsFrom]
    rw [← hjoin] at hc
    have hcount := @countP_partsFrom _ 0 _ _ hc hspace hcomma
    rwa [Nat.zero_add, ← hsplit] at hcount

theorem bracketDepth_cons (depth : Nat) (c : Char) (t : Text) :
    bracketDepth depth (c :: t) = bracketDepth (bracketDepth depth [c]) t := by
  rw [bracketDepth, bracketDepth]
  split
  · rfl
  · split <;> rfl

theorem bracketDepth_append_blank (depth : Nat) (t : Text) {spaces : Text} (h : Blank spaces) :
    bracketDepth depth (t ++ spaces) = bracketDepth depth t := by
  have hspaces : ∀ depth, bracketDepth depth spaces = depth := by
    induction spaces with
    | nil => exact fun depth => rfl
    | cons c spaces ih =>
      intro depth
      obtain ⟨hc, hrest⟩ := List.forall_mem_cons.mp h
      have hplain := fun d => @beq_eq_false_of_isSpace c d hc
      rw [bracketDepth, hplain '(' (by decide), hplain '[' (by decide), hplain ')' (by decide),
        hplain ']' (by decide)]
      exact ih hrest depth
  fun_induction bracketDepth depth t with
  | case1 depth => exact hspaces depth
  | case2 depth c rest hopen ih => rw [List.cons_append, bracketDepth, if_pos hopen, ih]
  | case3 depth c rest hopen hclose ih =>
    rw [List.cons_append, bracketDepth, if_neg hopen, if_pos hclose, ih]
  | case4 depth c rest hopen hclose ih =>
    rw [List.cons_append, bracketDepth, if_neg hopen, if_neg hclose, ih]

end Selector

namespace Sheet

open Selector

/-! ## The lists of a sheet -/

/-- A brace ends a segment only outside brackets. Without quotes these are all brackets. -/
theorem bracketDepth_of_segmentFrom {depth : Nat} {body header rest : Text}
    (h : segmentFrom none depth body = (header, some ('{', rest)))
    (hquotes : ∀ c ∈ header, isStyleQuote c = false) : bracketDepth depth header = 0 := by
  induction body generalizing depth header with
  | nil => cases h
  | cons c body ih =>
    cases hstop : depth == 0 && (c == '{' || c == ';' || c == '}') with
    | true =>
      rw [segmentFrom] at h
      dsimp only at h
      rw [if_pos hstop] at h
      obtain ⟨rfl, -⟩ := Prod.mk.inj h
      rw [bracketDepth]
      exact eq_of_beq (Bool.and_eq_true_iff.mp hstop).1
    | false =>
      have hhead : header.head? = some c := by
        have hfirst := congrArg (fun found => found.1.head?) h
        rw [segmentFrom] at hfirst
        dsimp only at hfirst
        rw [if_neg (ne_true_of_eq_false hstop)] at hfirst
        exact hfirst.symm
      obtain ⟨tail, rfl⟩ := List.head?_eq_some_iff.mp hhead
      obtain ⟨hquote, hunquoted⟩ := List.forall_mem_cons.mp hquotes
      rw [segmentFrom_cons hquote hstop] at h
      obtain ⟨htail, hend⟩ := Prod.mk.inj h
      rw [bracketDepth_cons]
      exact ih (Prod.ext (List.cons.inj htail).2 hend) hunquoted

/-- The selector lists of a sheet as they are written. -/
def rawTexts (sheet : Sheet) : List Text := sheet.rules.map (·.rawText)

/-- A text that was read as the header of a block. -/
def IsHeader (raw : Text) : Prop :=
  ∃ header body rest, segment body = (header, some ('{', rest)) ∧ raw = Text.trimRight header

theorem IsHeader.bracketDepth_eq_zero {raw : Text} (h : IsHeader raw)
    (hquotes : ∀ c ∈ raw, isStyleQuote c = false) : bracketDepth 0 raw = 0 := by
  obtain ⟨header, body, rest, hsegment, rfl⟩ := h
  obtain ⟨spaces, hblank, hsplit⟩ := Text.trimRight_append header
  have hheader : ∀ c ∈ header, isStyleQuote c = false := by
    rw [← hsplit]
    refine List.forall_mem_append.mpr ⟨hquotes, fun c hc => ?_⟩
    have hspace := hblank c hc
    refine Bool.eq_false_iff.mpr fun hquote => ?_
    rcases Bool.or_eq_true_iff.mp hquote with hquote | hquote
    all_goals
      rw [eq_of_beq hquote] at hspace
      revert hspace
      decide
  rw [← bracketDepth_append_blank 0 (Text.trimRight header) hblank, hsplit]
  exact bracketDepth_of_segmentFrom hsegment hheader

theorem rawTexts_addSegment (sheet : Sheet) (frame : Frame) (segment : Text) :
    (sheet.addSegment frame segment).rawTexts = sheet.rawTexts := by
  rcases addSegment_cases sheet frame segment with ⟨statements, heq⟩ |
    ⟨parent, declaration, -, -, -, heq⟩
  · rw [heq]
    rfl
  · rw [heq]
    refine List.ext_getElem? fun place => ?_
    simp only [rawTexts, addDeclaration, List.getElem?_map, List.getElem?_modify]
    cases sheet.rules[place]? with
    | none => rfl
    | some rule =>
      simp only [Option.map_some]
      split <;> rfl

theorem rawTexts_enter {sheet opened : Sheet} {frame child : Frame} {header inside : Text}
    (h : enter sheet frame header inside = some (child, opened)) :
    opened.rawTexts = sheet.rawTexts ∨
      opened.rawTexts = sheet.rawTexts ++ [Text.trimRight header] := by
  unfold enter at h
  dsimp only at h
  split at h
  · cases h
  · split at h
    · split at h
      · cases h
      · obtain ⟨-, rfl⟩ := Prod.mk.inj (Option.some.inj h)
        exact .inl rfl
    · obtain ⟨-, rfl⟩ := Prod.mk.inj (Option.some.inj h)
      exact .inr List.map_append

/-- A step adds no selector list but a header that it read. -/
theorem isHeader_step (pairs : List (Nat × Nat)) (frame : Frame) {sheet : Sheet}
    (h : ∀ raw ∈ sheet.rawTexts, IsHeader raw) :
    ∀ raw ∈ (step pairs frame sheet).2.rawTexts, IsHeader raw := by
  have houtcome := step_outcome pairs frame sheet
  generalize (step pairs frame sheet).1 = frames at houtcome
  generalize (step pairs frame sheet).2 = added at houtcome ⊢
  cases houtcome with
  | done => exact h
  | last => rwa [rawTexts_addSegment]
  | segment => rwa [rawTexts_addSegment]
  | skipped => exact h
  | entered _ hsegment _ henter =>
    rcases rawTexts_enter henter with heq | heq
    · rwa [heq]
    · rw [heq]
      refine List.forall_mem_append.mpr ⟨h, List.forall_mem_singleton.mpr ?_⟩
      exact ⟨_, _, _, hsegment, rfl⟩

theorem isHeader_walk (pairs : List (Nat × Nat)) (frames : List Frame) (sheet : Sheet)
    (h : ∀ raw ∈ sheet.rawTexts, IsHeader raw) :
    ∀ raw ∈ (walk pairs frames sheet).rawTexts, IsHeader raw := by
  fun_induction walk pairs frames sheet with
  | case1 sheet => exact h
  | case2 sheet frame frames ih => exact ih (isHeader_step pairs frame h)

theorem isHeader_of_mem {source : Text} {rule : Rule} (h : rule ∈ (ofText source).rules) :
    IsHeader rule.rawText :=
  isHeader_walk _ _ {} (fun raw hraw => by cases hraw) _ (List.mem_map_of_mem h)

end Sheet

namespace Selector

/-- The parts of a list stand in it at their offsets, trimmed, one behind the other. -/
structure PartsOf (list : Text) (parts : List (Text × Nat)) : Prop where
  placed : ∀ part ∈ parts, list.slice part.2 (part.2 + part.1.length) = part.1
  nonempty : ∀ part ∈ parts, part.1 ≠ []
  trimmed : ∀ part ∈ parts, Text.trim part.1 = part.1
  ordered : parts.Pairwise fun a b => a.2 + a.1.length < b.2

theorem pairwise_split (t : Text) : (split t).Pairwise fun a b => a.2 + a.1.length < b.2 := by
  rw [split_eq, closedPieces]
  split
  · exact pairwise_partsFrom 0 _
  · exact (pairwise_partsFrom 0 _).sublist ((List.dropLast_sublist _).filterMap ofPiece?)

theorem partsOf_split (t : Text) : PartsOf t (split t) where
  placed := fun _ h => Text.slice_of_prefix (mem_split h).2.2
  nonempty := fun _ h => (mem_split h).1
  trimmed := fun _ h => (mem_split h).2.1
  ordered := pairwise_split t

/-- In every style text the parts of a rule's list stand in it, one behind the other. They hold every
character that is neither white space nor a comma once, exactly if no bracket of the list is open at
its end, those in quoted texts counted; and they do in a list without quotes. -/
theorem holdsOnce_rule (source : Text) : ∀ rule ∈ (Sheet.ofText source).rules,
    PartsOf rule.rawText (split rule.rawText) ∧
    (HoldsOnce rule.rawText (split rule.rawText) ↔ bracketDepth 0 rule.rawText = 0) ∧
    ((∀ c ∈ rule.rawText, Sheet.isStyleQuote c = false) →
      HoldsOnce rule.rawText (split rule.rawText)) := by
  intro rule hrule
  refine ⟨partsOf_split _, holdsOnce_iff_bracketDepth _, fun hquotes => ?_⟩
  exact (holdsOnce_iff_bracketDepth _).mpr ((Sheet.isHeader_of_mem hrule).bracketDepth_eq_zero hquotes)

/-- A comma inside brackets cuts no list. -/
theorem holdsOnce_rule_notList : ∃ rule ∈ (Sheet.ofText ".a, .b:not(.c, .d) \x7b\x7d").rules,
    (∀ c ∈ rule.rawText, Sheet.isStyleQuote c = false) ∧
    split rule.rawText = [((".a" : Text), 0), ((".b:not(.c, .d)" : Text), 4)] ∧
    HoldsOnce rule.rawText (split rule.rawText) := by
  obtain ⟨rule, hrule, hplain, hsplit⟩ :
      ∃ rule ∈ (Sheet.ofText ".a, .b:not(.c, .d) \x7b\x7d").rules,
        rule.rawText.all (fun c => !Sheet.isStyleQuote c) = true ∧
        split rule.rawText = [((".a" : Text), 0), ((".b:not(.c, .d)" : Text), 4)] := by decide +kernel
  have hquotes : ∀ c ∈ rule.rawText, Sheet.isStyleQuote c = false := by
    intro c hc
    simpa using List.all_eq_true.mp hplain c hc
  exact ⟨rule, hrule, hquotes, hsplit, (holdsOnce_rule _ rule hrule).2.2 hquotes⟩

/-- A bracket in a quoted text keeps a list open, and its selectors are lost. -/
theorem lost_quotedBracket : ∃ rule ∈ (Sheet.ofText "a[x=\"(\"], b \x7b\x7d").rules,
    rule.rawText = "a[x=\"(\"], b" ∧ split rule.rawText = [] ∧
    ¬ HoldsOnce rule.rawText (split rule.rawText) := by
  obtain ⟨rule, hrule, hraw, hsplit⟩ : ∃ rule ∈ (Sheet.ofText "a[x=\"(\"], b \x7b\x7d").rules,
      rule.rawText = "a[x=\"(\"], b" ∧ split rule.rawText = [] := by decide +kernel
  refine ⟨rule, hrule, hraw, hsplit, fun h => ?_⟩
  have hcount := h 0 'a' (by rw [hraw]; decide) (by decide) (by decide)
  rw [hsplit] at hcount
  cases hcount

end Selector

end ComponentAudit
