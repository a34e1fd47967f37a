import ComponentAudit.Proofs.Style.Relocation
import Mathlib.Data.List.TakeWhile

/-! # Blocks one behind the other

A block without quotes and comments is complete if its braces are balanced and only white space follows
it. What stands behind a complete block is read as if it stood alone: no brace of the block is open
there, no comment can be, and the walk has worked off the block when it gets there. So the sheet of the
two is the sheet of the block, followed by the relocated sheet of the rest (`ofText_append`). -/

namespace ComponentAudit

/-! ## Comments -/

namespace Comment

/-- A character that opens no comment is kept. -/
theorem maskStyleFrom_cons {fresh : Bool} {c : Char} {rest : Text}
    (hblock : c = '/' → rest.head? ≠ some '*')
    (hline : fresh = true → c = '/' → rest.head? ≠ some '/') :
    maskStyleFrom .code fresh (c :: rest) =
      c :: maskStyleFrom .code (c == '\n' || (fresh && isSpace c)) rest := by
  rw [maskStyleFrom.eq_4]
  · rintro tail rfl rfl
    exact hblock rfl rfl
  · rintro tail rfl rfl rfl
    exact hline rfl rfl rfl

/-- What masking leaves alone opens no comment. -/
theorem opens_none {fresh : Bool} {c : Char} {rest : Text}
    (h : maskStyleFrom .code fresh (c :: rest) = c :: rest) :
    (c = '/' → rest.head? ≠ some '*') ∧ (fresh = true → c = '/' → rest.head? ≠ some '/') := by
  constructor
  · rintro rfl hhead
    obtain ⟨tail, rfl⟩ := List.head?_eq_some_iff.mp hhead
    rw [maskStyleFrom] at h
    exact absurd (List.cons.inj h).1 (by decide)
  · rintro rfl rfl hhead
    obtain ⟨tail, rfl⟩ := List.head?_eq_some_iff.mp hhead
    rw [maskStyleFrom] at h
    exact absurd (List.cons.inj h).1 (by decide)

/-- What follows a text without comments is masked on its own. -/
theorem maskStyleFrom_append {t : Text} {fresh : Bool} (h : maskStyleFrom .code fresh t = t)
    (hlast : t.getLast? ≠ some '/') :
    ∃ later, ∀ more, maskStyleFrom .code fresh (t ++ more) = t ++ maskStyleFrom .code later more := by
  induction t generalizing fresh with
  | nil => exact ⟨fresh, fun more => rfl⟩
  | cons c t ih =>
    obtain ⟨hblock, hline⟩ := opens_none h
    have hrest := (List.cons.inj ((maskStyleFrom_cons hblock hline).symm.trans h)).2
    cases t with
    | nil =>
      have hc : c ≠ '/' := fun hc => hlast (by rw [hc]; rfl)
      exact ⟨_, fun more => maskStyleFrom_cons (fun heq => absurd heq hc) fun _ heq => absurd heq hc⟩
    | cons d t =>
      obtain ⟨later, hlater⟩ := ih hrest (by rwa [List.getLast?_cons_cons] at hlast)
      refine ⟨later, fun more => ?_⟩
      have hcons : maskStyleFrom .code fresh (c :: (d :: t ++ more)) = _ :=
        maskStyleFrom_cons hblock hline
      exact hcons.trans (congrArg (c :: ·) (hlater more))

/-- A text without comments has none further down in a line, either. -/
theorem maskStyleFrom_of_fresh {t : Text} (h : maskStyleFrom .code true t = t) (fresh : Bool) :
    maskStyleFrom .code fresh t = t := by
  induction t generalizing fresh with
  | nil => rfl
  | cons c t ih =>
    obtain ⟨hblock, hline⟩ := opens_none h
    have hrest := (List.cons.inj ((maskStyleFrom_cons hblock hline).symm.trans h)).2
    rw [maskStyleFrom_cons hblock fun _ => hline rfl]
    rw [Bool.true_and] at hrest
    refine congrArg (c :: ·) ?_
    cases hspace : isSpace c with
    | true =>
      rw [hspace, Bool.or_true] at hrest
      exact ih hrest _
    | false => rwa [Bool.and_false, ← hspace]

end Comment

namespace Sheet

/-! ## Braces -/

/-- Whether every brace of a text has its partner in the text, but for `depth` braces that are open in
front of it and closed in it. -/
def bracesBalanced (depth : Nat) : Text → Bool
  | [] => depth == 0
  | c :: rest =>
    if c == '{' then bracesBalanced (depth + 1) rest
    else if c == '}' then depth != 0 && bracesBalanced (depth - 1) rest
    else bracesBalanced depth rest

theorem bracesBalanced_append {depth : Nat} {t : Text} (h : bracesBalanced depth t = true)
    (deeper : Nat) (more : Text) :
    bracesBalanced (depth + deeper) (t ++ more) = bracesBalanced deeper more := by
  induction t generalizing depth with
  | nil => rw [eq_of_beq h, Nat.zero_add, List.nil_append]
  | cons c t ih =>
    rw [bracesBalanced] at h
    rw [List.cons_append, bracesBalanced]
    split at h
    · rename_i hopen
      rw [if_pos hopen, ← ih h, Nat.add_right_comm]
    · rename_i hopen
      rw [if_neg hopen]
      split at h
      · rename_i hclose
        obtain ⟨hdepth, hrest⟩ := Bool.and_eq_true_iff.mp h
        have hpos : depth ≠ 0 := bne_iff_ne.mp hdepth
        have hdeeper : (depth + deeper != 0) = true := bne_iff_ne.mpr (by omega)
        rw [if_pos hclose, hdeeper, Bool.true_and, ← ih hrest,
          Nat.sub_add_comm (Nat.pos_of_ne_zero hpos)]
      · rename_i hclose
        rw [if_neg hclose, ih h]

theorem bracePairsFrom_open (openers : List Nat) (offset : Nat) (t : Text) :
    bracePairsFrom none openers offset ('{' :: t) =
      bracePairsFrom none (offset :: openers) (offset + 1) t := rfl

theorem bracePairsFrom_close (opener : Nat) (openers : List Nat) (offset : Nat) (t : Text) :
    bracePairsFrom none (opener :: openers) offset ('}' :: t) =
      (opener, offset) :: bracePairsFrom none openers (offset + 1) t := rfl

theorem bracePairsFrom_other {c : Char} (hquote : isStyleQuote c = false) (hopen : (c == '{') = false)
    (hclose : (c == '}') = false) (openers : List Nat) (offset : Nat) (t : Text) :
    bracePairsFrom none openers offset (c :: t) = bracePairsFrom none openers (offset + 1) t := by
  simp [bracePairsFrom, hquote, hopen, hclose]

/-- The pairs of a text without quotes whose braces are balanced come before those of what follows,
and no brace of the text is open there. -/
theorem bracePairsFrom_append {t : Text} {opened : List Nat}
    (hquotes : ∀ c ∈ t, isStyleQuote c = false) (hbalanced : bracesBalanced opened.length t = true)
    (openers : List Nat) (offset : Nat) (more : Text) :
    bracePairsFrom none (opened ++ openers) offset (t ++ more) =
      bracePairsFrom none opened offset t ++
        bracePairsFrom none openers (offset + t.length) more := by
  induction t generalizing opened offset with
  | nil =>
    obtain rfl := List.length_eq_zero_iff.mp (eq_of_beq hbalanced)
    rfl
  | cons c t ih =>
    obtain ⟨hquote, hunquoted⟩ := List.forall_mem_cons.mp hquotes
    have hlength : offset + (c :: t).length = offset + 1 + t.length := by
      rw [List.length_cons]
      omega
    rw [hlength, List.cons_append]
    rw [bracesBalanced] at hbalanced
    cases hopen : c == '{' with
    | true =>
      obtain rfl := eq_of_beq hopen
      exact @ih (offset :: opened) hunquoted hbalanced _
    | false =>
      rw [hopen, if_neg Bool.false_ne_true] at hbalanced
      cases hclose : c == '}' with
      | true =>
        obtain rfl := eq_of_beq hclose
        obtain ⟨hdepth, hrest⟩ := Bool.and_eq_true_iff.mp hbalanced
        cases opened with
        | nil => cases hdepth
        | cons opener opened => exact congrArg ((opener, offset) :: ·) (ih hunquoted hrest _)
      | false =>
        rw [hclose, if_neg Bool.false_ne_true] at hbalanced
        rw [bracePairsFrom_other hquote hopen hclose, bracePairsFrom_other hquote hopen hclose]
        exact ih hunquoted hbalanced _

/-- What is paired was open in front of the text or stands in it. -/
theorem opener_of_mem {quote : Option Char} {openers : List Nat} {offset : Nat} {t : Text}
    {pair : Nat × Nat} (h : pair ∈ bracePairsFrom quote openers offset t) :
    pair.1 ∈ openers ∨ offset ≤ pair.1 ∧ pair.1 < offset + t.length := by
  fun_induction bracePairsFrom quote openers offset t <;> grind

/-- A brace that stands outside a text is not paired in it. -/
theorem lookup_outside {offset opener : Nat} {t : Text}
    (h : opener < offset ∨ offset + t.length ≤ opener) :
    (bracePairsFrom none [] offset t).lookup opener = none := by
  refine List.lookup_eq_none_iff.mpr fun pair hpair => bne_iff_ne.mpr ?_
  rcases opener_of_mem hpair with hmem | hmem
  · cases hmem
  · omega

/-- The pairs of a text some distance further down. -/
theorem bracePairsFrom_relocate (quote : Option Char) (openers : List Nat) (offset distance : Nat)
    (t : Text) :
    bracePairsFrom quote (openers.map (· + distance)) (offset + distance) t =
      (bracePairsFrom quote openers offset t).map fun pair =>
        (pair.1 + distance, pair.2 + distance) := by
  fun_induction bracePairsFrom quote openers offset t with
  | case4 openers offset c rest q hescape ih =>
    rw [bracePairsFrom.eq_def]
    dsimp only
    rw [if_neg hescape, Nat.add_right_comm]
    exact ih
  | _ => simp_all [bracePairsFrom, Nat.add_right_comm]

theorem lookup_relocate (pairs : List (Nat × Nat)) (opener distance : Nat) :
    (pairs.map fun pair => (pair.1 + distance, pair.2 + distance)).lookup (opener + distance) =
      (pairs.lookup opener).map (· + distance) := by
  induction pairs with
  | nil => rfl
  | cons pair pairs ih =>
    rw [List.map_cons, List.lookup_cons, List.lookup_cons]
    have hsame : (opener + distance == pair.1 + distance) = (opener == pair.1) := by simp
    rw [hsame]
    cases opener == pair.1 with
    | true => rfl
    | false => exact ih

/-! ## Complete blocks -/

/-- A text that is one complete block, white space around it: a header up to the first delimiter, which
is a brace, what is inside the braces, and what follows them. There are no quotes and no comments, and
the braces in the header and inside the block are balanced. -/
structure CompleteBlock (text header inside trail : Text) : Prop where
  opens : segment (Text.trimLeft text) = (header, some ('{', inside ++ '}' :: trail))
  header : bracesBalanced 0 header = true
  inside : bracesBalanced 0 inside = true
  trail : Blank trail
  unquoted : ∀ c ∈ text, isStyleQuote c = false
  uncommented : Comment.maskStyle text = text

instance (text header inside trail : Text) : Decidable (CompleteBlock text header inside trail) :=
  have : Decidable (Blank trail) := List.decidableBAll (fun c => isSpace c = true) trail
  have := List.decidableBAll (fun c => isStyleQuote c = false) text
  decidable_of_iff
    (segment (Text.trimLeft text) = (header, some ('{', inside ++ '}' :: trail)) ∧
      bracesBalanced 0 header = true ∧ bracesBalanced 0 inside = true ∧ Blank trail ∧
      (∀ c ∈ text, isStyleQuote c = false) ∧ Comment.maskStyle text = text)
    ⟨fun ⟨a, b, c, d, e, f⟩ => ⟨a, b, c, d, e, f⟩, fun ⟨a, b, c, d, e, f⟩ => ⟨a, b, c, d, e, f⟩⟩

/-- What a segment is does not depend on what follows its delimiter. -/
theorem segmentFrom_append_more {depth : Nat} {body header rest : Text} {d : Char}
    (hquotes : ∀ c ∈ body, isStyleQuote c = false)
    (h : segmentFrom none depth body = (header, some (d, rest))) (more : Text) :
    segmentFrom none depth (body ++ more) = (header, some (d, rest ++ more)) := by
  induction body generalizing depth header with
  | nil => cases h
  | cons c body ih =>
    obtain ⟨hquote, hunquoted⟩ := List.forall_mem_cons.mp hquotes
    rw [List.cons_append]
    cases hstop : depth == 0 && (c == '{' || c == ';' || c == '}') with
    | true =>
      rw [segmentFrom] at h ⊢
      dsimp only at h ⊢
      rw [if_pos hstop] at h ⊢
      obtain ⟨rfl, hend⟩ := Prod.mk.inj h
      obtain ⟨rfl, rfl⟩ := Prod.mk.inj (Option.some.inj hend)
      rfl
    | false =>
      rw [segmentFrom_cons hquote hstop] at h ⊢
      obtain ⟨rfl, hend⟩ := Prod.mk.inj h
      rw [ih hunquoted (Prod.ext rfl hend)]

theorem bracesBalanced_blank {spaces : Text} (h : Blank spaces) : bracesBalanced 0 spaces = true := by
  induction spaces with
  | nil => rfl
  | cons c spaces ih =>
    obtain ⟨hc, hspaces⟩ := List.forall_mem_cons.mp h
    rw [bracesBalanced, beq_eq_false_of_isSpace hc (by decide : isSpace '{' = false),
      beq_eq_false_of_isSpace hc (by decide : isSpace '}' = false)]
    exact ih hspaces

namespace CompleteBlock

variable {text header inside trail : Text}

/-- The text in front of the brace that opens the block. -/
theorem text_eq (h : CompleteBlock text header inside trail) :
    text = (text.takeWhile isSpace ++ header) ++ '{' :: (inside ++ '}' :: trail) := by
  have happend := segmentFrom_append_stop none 0 (Text.trimLeft text)
  rw [← segment, h.opens, Option.elim_some] at happend
  rw [List.append_assoc, happend, Text.trimLeft, List.takeWhile_append_dropWhile]

theorem front_balanced (h : CompleteBlock text header inside trail) :
    bracesBalanced 0 (text.takeWhile isSpace ++ header) = true := by
  have hlead : Blank (text.takeWhile isSpace) :=
    fun c hc => List.all_eq_true.mp List.all_takeWhile c hc
  rw [← Nat.add_zero 0, bracesBalanced_append (bracesBalanced_blank hlead), h.header]

theorem balanced (h : CompleteBlock text header inside trail) : bracesBalanced 0 text = true := by
  have hbehind : bracesBalanced 1 (inside ++ '}' :: trail) = true := by
    rw [← Nat.zero_add 1, bracesBalanced_append h.inside]
    exact bracesBalanced_blank h.trail
  rw [h.text_eq, ← Nat.add_zero 0, bracesBalanced_append h.front_balanced]
  exact hbehind

/-- The brace that opens the block is closed at the end of the block, whatever follows. -/
theorem lookup_opener (h : CompleteBlock text header inside trail) (more : Text) :
    (bracePairs (text ++ more)).lookup (text.takeWhile isSpace ++ header).length =
      some ((text.takeWhile isSpace ++ header).length + 1 + inside.length) := by
  have hbalanced := h.front_balanced
  have hunquoted := h.unquoted
  have htext := h.text_eq
  generalize text.takeWhile isSpace ++ header = front at hbalanced htext ⊢
  rw [htext] at hunquoted ⊢
  obtain ⟨hfront, hblock⟩ := List.forall_mem_append.mp hunquoted
  obtain ⟨hinside, -⟩ := List.forall_mem_append.mp (List.forall_mem_cons.mp hblock).2
  have hpairs := @bracePairsFrom_append front [] hfront hbalanced [] 0
    ('{' :: (inside ++ '}' :: trail) ++ more)
  have hnested := @bracePairsFrom_append inside [] hinside h.inside [front.length] (front.length + 1)
    ('}' :: (trail ++ more))
  rw [List.nil_append] at hpairs hnested
  rw [bracePairs, List.append_assoc, hpairs, List.lookup_append, lookup_outside (.inr (by omega)),
    Option.none_or, Nat.zero_add, List.cons_append, bracePairsFrom_open, List.append_assoc,
    List.cons_append, hnested, List.lookup_append, lookup_outside (.inl (by omega)), Option.none_or,
    bracePairsFrom_close, List.lookup_cons_self]

/-- The pairs of braces of a block come before those of what follows it. -/
theorem bracePairs_append (h : CompleteBlock text header inside trail) (more : Text) :
    bracePairs (text ++ more) = bracePairs text ++ bracePairsFrom none [] text.length more := by
  have hpairs := @bracePairsFrom_append text [] h.unquoted h.balanced [] 0 more
  rw [List.nil_append, Nat.zero_add] at hpairs
  exact hpairs

/-- In front of its end the pairs of a block are found whatever follows. -/
theorem lookup_front (h : CompleteBlock text header inside trail) (more : Text) :
    ∀ opener < text.length,
      (bracePairs (text ++ more)).lookup opener = (bracePairs text).lookup opener := by
  intro opener hopener
  rw [h.bracePairs_append, List.lookup_append, lookup_outside (.inl hopener), Option.or_none]

/-- The pairs of what follows a block are found behind it. -/
theorem relocated (h : CompleteBlock text header inside trail) (bound : Nat) (more : Text) :
    Relocated text.length bound (bracePairs more) (bracePairs (text ++ more)) := by
  intro opener _
  have houtside : (bracePairs text).lookup (opener + text.length) = none :=
    lookup_outside (.inr (by omega))
  have hlater := bracePairsFrom_relocate none [] 0 text.length more
  rw [List.map_nil, Nat.zero_add] at hlater
  rw [h.bracePairs_append, List.lookup_append, houtside, Option.none_or, hlater, lookup_relocate]
  rfl

/-! ## Reading a complete block -/

/-- The open block of the whole text behind its white space. -/
theorem ink_append (h : CompleteBlock text header inside trail) (more context : Text) (offset : Nat)
    (enclosing : List Nat) :
    Frame.ink ⟨offset, text ++ more, context, enclosing⟩ =
      ⟨offset + (text.takeWhile isSpace).length, Text.trimLeft text ++ more, context, enclosing⟩ := by
  have hne : text.dropWhile isSpace ≠ [] := by
    intro hempty
    have hopens := h.opens
    rw [Text.trimLeft, hempty] at hopens
    cases hopens
  have hlength : (text.takeWhile isSpace).length ≠ text.length := by
    intro heq
    have hsplit := congrArg List.length (List.takeWhile_append_dropWhile (p := isSpace) (l := text))
    rw [List.length_append] at hsplit
    exact hne (List.length_eq_zero_iff.mp (by omega))
  rw [Frame.ink]
  dsimp only
  rw [List.takeWhile_append, if_neg hlength, List.dropWhile_append, if_neg (by simpa using hne)]
  rfl

end CompleteBlock

/-- White space in front of the rest of an open block does not count. -/
theorem ink_blank {spaces : Text} (h : Blank spaces) (more context : Text) (offset : Nat)
    (enclosing : List Nat) :
    Frame.ink ⟨offset, spaces ++ more, context, enclosing⟩ =
      Frame.ink ⟨offset + spaces.length, more, context, enclosing⟩ := by
  simp only [Frame.ink, List.takeWhile_append_of_pos h, List.dropWhile_append_of_pos h,
    List.length_append, Nat.add_assoc]

/-- Open blocks that differ only in the white space in front are worked off the same. -/
theorem walk_of_ink_eq {frame other : Frame} (h : frame.ink = other.ink) (pairs : List (Nat × Nat))
    (frames : List Frame) (sheet : Sheet) :
    walk pairs (frame :: frames) sheet = walk pairs (other :: frames) sheet := by
  have houtcome := step_outcome pairs other sheet
  rw [← h] at houtcome
  rw [walk, walk, step_eq_of_outcome houtcome]

/-- What is read when a block is met: its rule and what is inside it, or nothing if it is passed
over. -/
def readBlock (pairs : List (Nat × Nat)) (frame : Frame) (header inside : Text) (sheet : Sheet) :
    Sheet :=
  match enter sheet frame header inside with
  | some (child, opened) => walk pairs [child] opened
  | none => sheet

theorem ofText_of_uncommented {text : Text} (h : Comment.maskStyle text = text) :
    ofText text = walk (bracePairs text) [⟨0, text, [], []⟩] {} := by
  unfold ofText
  rw [h]

/-- A walk reads a block whose brace is closed, and goes on behind it. -/
theorem walk_block {pairs : List (Nat × Nat)} {frame : Frame} {header inside rest : Text}
    (hsegment : segment frame.ink.body = (header, some ('{', inside ++ '}' :: rest)))
    (hpair : pairs.lookup (frame.ink.offset + header.length) =
      some (frame.ink.offset + header.length + 1 + inside.length)) (sheet : Sheet) :
    walk pairs [frame] sheet =
      walk pairs [⟨frame.ink.offset + header.length + inside.length + 2, rest, frame.context,
        frame.enclosing⟩] (readBlock pairs frame.ink header inside sheet) := by
  have hbody : frame.ink.body ≠ [] := by
    intro hempty
    rw [hempty] at hsegment
    cases hsegment
  have hsize : inside.length =
      insideLength pairs (frame.ink.offset + header.length) (inside ++ '}' :: rest) := by
    rw [insideLength, hpair, List.length_append]
    dsimp only
    omega
  have htake : (inside ++ '}' :: rest).take inside.length = inside := List.take_left
  have hbehind : frame.ink.behind header (inside ++ '}' :: rest) inside.length =
      ⟨frame.ink.offset + header.length + inside.length + 2, rest, frame.context, frame.enclosing⟩ := by
    rw [Frame.behind, ← List.drop_drop, List.drop_left]
    rfl
  rw [walk, readBlock]
  cases henter : enter sheet frame.ink header inside with
  | none =>
    have houtcome := Outcome.skipped hbody hsegment hsize (htake.symm ▸ henter)
    rw [step_eq_of_outcome houtcome, hbehind]
    rfl
  | some entered =>
    obtain ⟨child, opened⟩ := entered
    have houtcome := Outcome.entered hbody hsegment hsize (htake.symm ▸ henter)
    rw [step_eq_of_outcome houtcome, hbehind]
    exact Sheet.walk_append pairs [child] _ opened

namespace CompleteBlock

variable {text header inside trail : Text}

theorem length_eq (h : CompleteBlock text header inside trail) :
    text.length = (text.takeWhile isSpace).length + header.length + inside.length + 2 + trail.length := by
  have hlength := congrArg List.length h.text_eq
  rw [List.length_append, List.length_append, List.length_cons, List.length_append,
    List.length_cons] at hlength
  omega

/-- The open block of a text behind the white space in front. -/
def frameOf (text : Text) : Frame := ⟨(text.takeWhile isSpace).length, [], [], []⟩

/-- A walk reads a complete block and goes on behind it. -/
theorem walk_eq (h : CompleteBlock text header inside trail) (more : Text) :
    walk (bracePairs (text ++ more)) [⟨0, text ++ more, [], []⟩] {} =
      walk (bracePairs (text ++ more)) [⟨text.length, more, [], []⟩]
        (readBlock (bracePairs (text ++ more)) (frameOf text) header inside {}) := by
  have hunquoted : ∀ c ∈ Text.trimLeft text, isStyleQuote c = false :=
    fun c hc => h.unquoted c ((List.dropWhile_sublist _).subset hc)
  have hsegment := segmentFrom_append_more hunquoted h.opens more
  have hlookup := h.lookup_opener more
  have hink := h.ink_append more [] 0 []
  rw [Nat.zero_add] at hink
  rw [List.append_assoc, List.cons_append] at hsegment
  rw [List.length_append] at hlookup
  have hblock := @walk_block (bracePairs (text ++ more)) ⟨0, text ++ more, [], []⟩ header inside
    (trail ++ more)
  rw [hink] at hblock
  rw [hblock hsegment hlookup]
  -- behind the block there is only its trail in front of the rest
  refine walk_of_ink_eq ?_ _ [] _
  rw [ink_blank h.trail, h.length_eq]

/-- Inside a complete block the walk does not see what follows it. -/
theorem readBlock_append (h : CompleteBlock text header inside trail) (more : Text) :
    readBlock (bracePairs (text ++ more)) (frameOf text) header inside {} =
      readBlock (bracePairs text) (frameOf text) header inside {} := by
  unfold readBlock
  cases henter : enter {} (frameOf text) header inside with
  | none => rfl
  | some entered =>
    obtain ⟨child, opened⟩ := entered
    obtain ⟨hoffset, hinside, -⟩ := enter_cases henter
    refine walk_congr (h.lookup_front more) (List.forall_mem_singleton.mpr fun _ => ?_)
    rw [hoffset, hinside, h.length_eq]
    dsimp only [frameOf]
    omega

theorem ofText_eq (h : CompleteBlock text header inside trail) :
    ofText text = readBlock (bracePairs text) (frameOf text) header inside {} := by
  have hwalk := h.walk_eq []
  rw [List.append_nil] at hwalk
  have hend : ∀ sheet, walk (bracePairs text) [⟨text.length, [], [], []⟩] sheet = sheet := by
    intro sheet
    have hstep : step (bracePairs text) ⟨text.length, [], [], []⟩ sheet = ([], sheet) :=
      step_eq_of_outcome (.done rfl)
    rw [walk, hstep, List.append_nil, walk]
  rw [ofText_of_uncommented h.uncommented, hwalk, hend]

theorem maskStyle_append (h : CompleteBlock text header inside trail) {more : Text}
    (hmore : Comment.maskStyle more = more) : Comment.maskStyle (text ++ more) = text ++ more := by
  have hlast : text.getLast? ≠ some '/' := by
    intro hslash
    rw [h.text_eq, ← List.cons_append, ← List.append_assoc, List.getLast?_append,
      List.getLast?_eq_some_getLast (List.cons_ne_nil '}' trail), Option.some_or] at hslash
    have hmem : '/' ∈ '}' :: trail := Option.some.inj hslash ▸ List.getLast_mem _
    rcases List.mem_cons.mp hmem with hbrace | htrail
    · exact absurd hbrace (by decide)
    · exact h.trail.not_mem (by decide) htrail
  obtain ⟨later, hlater⟩ := Comment.maskStyleFrom_append h.uncommented hlast
  exact (hlater more).trans (congrArg (text ++ ·) (Comment.maskStyleFrom_of_fresh hmore later))

/-- A complete block and what follows it without comments: the sheet of the block comes first, and the
rest is read as if it stood alone, but further down and behind the rules of the block. -/
theorem ofText_append (h : CompleteBlock text header inside trail) {more : Text}
    (hmore : Comment.maskStyle more = more) :
    ofText (text ++ more) = (ofText text).followedBy text.length (ofText more) := by
  have hframe : ([⟨text.length, more, [], []⟩] : List Frame) =
      [⟨0, more, [], []⟩].map (Frame.relocate text.length (ofText text).rules.length) := by
    simp [Frame.relocate]
  have hlater : ∀ frame ∈ ([⟨0, more, [], []⟩] : List Frame), frame.EndsBy more.length :=
    List.forall_mem_singleton.mpr fun _ => Nat.le_of_eq (Nat.zero_add _)
  have hwalk := @walk_relocate (ofText text) {} text.length more.length _ _ _
    (h.relocated more.length more) hlater
  rw [followedBy_empty, ← hframe] at hwalk
  rw [ofText_of_uncommented (h.maskStyle_append hmore), h.walk_eq, h.readBlock_append, ← h.ofText_eq,
    hwalk, ← ofText_of_uncommented hmore]

end CompleteBlock

end Sheet

end ComponentAudit
