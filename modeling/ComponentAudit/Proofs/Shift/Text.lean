import ComponentAudit.Proofs.Shift.Record

/-! # Texts with a line feed in front

Searching a text that got a line feed in front finds what it found before, one character further on
and one line further down. A place in the longer text is the old place with the line feed at the far
end of what is before it (`Cursor.lineDown`). Nothing that is searched for opens with a line feed, and
a line feed belongs to no word, so looking behind at the start of the old text changes nothing. -/

namespace ComponentAudit

/-- A text to search for that cannot start at a line feed. -/
def OpensInk (needle : Text) : Prop := needle.head? ≠ some '\n'

instance (needle : Text) : Decidable (OpensInk needle) := inferInstanceAs (Decidable (_ ≠ _))

namespace Text

theorem slice_lineFeed (t : Text) (start stop : Nat) :
    slice ('\n' :: t) (start + 1) (stop + 1) = slice t start stop := by
  simp [slice]

theorem mentions_lineFeed {needle : Text} (h : OpensInk needle) (t : Text) :
    mentions ('\n' :: t) needle = mentions t needle := by
  rw [mentions_cons]
  cases needle with
  | nil => simp [( mentions_iff_infix t []).mpr List.nil_infix]
  | cons c needle =>
    have hc : c ≠ '\n' := by simpa [OpensInk] using h
    simp [hc]

theorem occurrencesFrom_succ (needle : Text) (offset : Nat) (t : Text) :
    occurrencesFrom needle (offset + 1) t = (occurrencesFrom needle offset t).map (· + 1) := by
  induction t generalizing offset with
  | nil => rfl
  | cons c t ih => by_cases h : needle.isPrefixOf (c :: t) <;> simp [occurrencesFrom, h, ih]

theorem occurrences_lineFeed {needle : Text} (h : OpensInk needle) (t : Text) :
    occurrences ('\n' :: t) needle = (occurrences t needle).map (· + 1) := by
  cases needle with
  | nil => rfl
  | cons c needle =>
    have hc : c ≠ '\n' := by simpa [OpensInk] using h
    have hp : (c :: needle).isPrefixOf ('\n' :: t) = false := by simp [List.isPrefixOf, hc]
    simp only [occurrences, List.isEmpty_cons, Bool.false_eq_true, if_false, occurrencesFrom, hp,
      occurrencesFrom_succ]

theorem occurrencesIn_lineFeed {needle : Text} (h : OpensInk needle) (t : Text) {start start' : Nat}
    (hs : ∀ p, start' ≤ p + 1 ↔ start ≤ p) (stop : Nat) :
    occurrencesIn ('\n' :: t) needle start' (stop + 1) =
      (occurrencesIn t needle start stop).map (· + 1) := by
  rw [occurrencesIn, occurrencesIn, occurrences_lineFeed h, List.filter_map]
  congr 2
  funext p
  have hstop : p + 1 + needle.length ≤ stop + 1 ↔ p + needle.length ≤ stop := by omega
  simp only [Function.comp_apply, hs, hstop]

/-- A line feed is no identifier character, so it does not glue to what follows. -/
theorem isWholeToken_lineFeed (t : Text) (start stop : Nat) :
    isWholeToken ('\n' :: t) (start + 1) (stop + 1) = isWholeToken t start stop := by
  have hlf : isIdentChar '\n' = false := by decide
  simp only [isWholeToken, List.take_succ_cons, List.drop_succ_cons, List.getLast?_cons]
  cases (t.take start).getLast? <;> simp [hlf]

theorem tokensIn_lineFeed {name : Text} (h : OpensInk name) (t : Text) {start start' : Nat}
    (hs : ∀ p, start' ≤ p + 1 ↔ start ≤ p) (stop : Nat) :
    tokensIn ('\n' :: t) name start' (stop + 1) = (tokensIn t name start stop).map (· + 1) := by
  rw [tokensIn, tokensIn, occurrencesIn_lineFeed h t hs, List.filter_map]
  congr 2
  funext p
  simp only [Function.comp_apply]
  rw [show p + 1 + name.length = p + name.length + 1 by omega, isWholeToken_lineFeed]

theorem tokens_lineFeed {name : Text} (h : OpensInk name) (t : Text) :
    tokens ('\n' :: t) name = (tokens t name).map (· + 1) :=
  tokensIn_lineFeed h t (fun _ => by omega) t.length

end Text

/-! ## Lines -/

theorem lineStartsFrom_succ (offset : Nat) (t : Text) :
    lineStartsFrom (offset + 1) t = (lineStartsFrom offset t).map (· + 1) := by
  induction t generalizing offset with
  | nil => rfl
  | cons c t ih => by_cases h : c = '\n' <;> simp [lineStartsFrom, h, ih]

theorem position_ofText (t : Text) (offset : Nat) :
    (LineIndex.ofText t).position offset =
      ⟨((0 :: lineStartsFrom 0 t).takeWhile (· ≤ min offset t.length)).length,
        min offset t.length -
          ((0 :: lineStartsFrom 0 t).takeWhile (· ≤ min offset t.length)).getLastD 0 + 1⟩ := rfl

theorem position_lineFeed (t : Text) (offset : Nat) :
    (LineIndex.ofText ('\n' :: t)).position (offset + 1) =
      ((LineIndex.ofText t).position offset).shift 1 := by
  have hstarts : lineStartsFrom 0 ('\n' :: t) = (0 :: lineStartsFrom 0 t).map (· + 1) := by
    simp [lineStartsFrom, lineStartsFrom_succ]
  have hplace : min (offset + 1) (t.length + 1) = min offset t.length + 1 := by omega
  have hpassed : ((0 :: lineStartsFrom 0 t).map (· + 1)).takeWhile (· ≤ min offset t.length + 1) =
      (0 :: (lineStartsFrom 0 t).takeWhile (· ≤ min offset t.length)).map (· + 1) := by
    simp [List.takeWhile_map, Function.comp_def]
  simp only [position_ofText, List.length_cons, hstarts, hplace, List.takeWhile_cons, Nat.zero_le,
    decide_true, if_true, hpassed]
  generalize (lineStartsFrom 0 t).takeWhile (· ≤ min offset t.length) = passed
  -- the old first line start is never the last thing passed over in the longer text
  have hlast : (0 :: List.map (· + 1) (0 :: passed)).getLastD 0 = (0 :: passed).getLastD 0 + 1 := by
    rw [List.getLastD_cons, List.getLastD_eq_getLast?, List.getLast?_map, List.getLastD_eq_getLast?]
    cases h : (0 :: passed).getLast? with
    | none => simp at h
    | some last => simp
  rw [hlast, Position.shift]
  simp

/-! ## Places -/

namespace Cursor

/-- The same place after the text got a line feed in front. -/
def lineDown (c : Cursor) : Cursor := ⟨c.before ++ ['\n'], c.after⟩

@[simp] theorem after_lineDown (c : Cursor) : c.lineDown.after = c.after := rfl

@[simp] theorem offset_lineDown (c : Cursor) : c.lineDown.offset = c.offset + 1 := by
  simp [lineDown, offset]

@[simp] theorem peek?_lineDown (c : Cursor) : c.lineDown.peek? = c.peek? := rfl

@[simp] theorem advance_lineDown (c : Cursor) (n : Nat) :
    c.lineDown.advance n = (c.advance n).lineDown := by
  simp [lineDown, advance]

@[simp] theorem skipWhile_lineDown (p : Char → Bool) (c : Cursor) :
    c.lineDown.skipWhile p = (c.skipWhile p).lineDown := by
  simp [lineDown, skipWhile]

@[simp] theorem skipSpaces_lineDown (c : Cursor) : c.lineDown.skipSpaces = c.skipSpaces.lineDown :=
  skipWhile_lineDown isSpace c

theorem expect?_lineDown (word : Text) (c : Cursor) :
    c.lineDown.expect? word = (c.expect? word).map lineDown := by
  by_cases h : word.isPrefixOf c.after <;> simp [expect?, startsWith, h]

theorem name?_lineDown (head tail : Char → Bool) (c : Cursor) :
    c.lineDown.name? head tail = (c.name? head tail).map fun (name, stop) => (name, stop.lineDown) := by
  cases h : c.after with
  | nil => simp [name?, h]
  | cons first rest => by_cases hf : head first <;> simp [name?, h, hf]

theorem quoted?_lineDown (quote : Char) (c : Cursor) :
    c.lineDown.quoted? quote = (c.quoted? quote).map fun (t, stop) => (t, stop.lineDown) := by
  by_cases h : (c.skipWhile (· != quote)).after.isEmpty <;> simp [quoted?, h]

/-- Looking behind for a property that a line feed lacks. -/
theorem prev?_lineDown {p : Char → Bool} (hp : p '\n' = false) (c : Cursor) :
    c.lineDown.prev?.any p = c.prev?.any p := by
  cases h : c.before <;> simp [lineDown, prev?, h, hp]

theorem seek_lineFeed (t : Text) (offset : Nat) :
    seek ('\n' :: t) (offset + 1) = (seek t offset).lineDown := by
  simp [seek, lineDown]

theorem takeWhile_before_lineDown {p : Char → Bool} (hp : p '\n' = false) (c : Cursor) :
    c.lineDown.before.takeWhile p = c.before.takeWhile p := by
  rw [lineDown]
  induction c.before with
  | nil => simp [hp]
  | cons d before ih => by_cases hd : p d <;> simp [hd, ih]

theorem line_lineDown (c : Cursor) : c.lineDown.line = c.line := by
  have h := takeWhile_before_lineDown (p := (· != '\n')) (by decide) c
  simp only [line, restOfLine, h, after_lineDown]

theorem collectFrom_lineDown {α : Type} {recognise : Cursor → Option (α × Cursor)} {f : α → α}
    (h : ∀ c, recognise c.lineDown = (recognise c).map fun (a, stop) => (f a, stop.lineDown))
    (covered : Nat) (before t : Text) :
    collectFrom recognise covered (before ++ ['\n']) t =
      (collectFrom recognise covered before t).map f := by
  induction t generalizing covered before with
  | nil => simp [collectFrom]
  | cons c t ih =>
    cases covered with
    | succ covered => simpa only [collectFrom, List.cons_append] using ih covered (c :: before)
    | zero =>
      have hc := h ⟨before, c :: t⟩
      rw [lineDown] at hc
      simp only at hc
      rw [collectFrom, collectFrom, hc]
      cases hr : recognise ⟨before, c :: t⟩ with
      | none => simpa only [Option.map_none, List.cons_append] using ih 0 (c :: before)
      | some found =>
        obtain ⟨a, stop⟩ := found
        simp only [Option.map_some, offset_lineDown, List.length_append, List.length_singleton,
          List.map_cons, Nat.add_sub_add_right]
        rw [← List.cons_append, ih]

/-- A recogniser that reads the same one line further down finds the same things there. -/
theorem collect_lineFeed {α : Type} {recognise : Cursor → Option (α × Cursor)} {f : α → α}
    (h : ∀ c, recognise c.lineDown = (recognise c).map fun (a, stop) => (f a, stop.lineDown))
    (t : Text) (h0 : recognise ⟨[], '\n' :: t⟩ = none) :
    collect recognise ('\n' :: t) = (collect recognise t).map f := by
  rw [collect, collectFrom, h0]
  exact collectFrom_lineDown h 0 [] t

end Cursor

theorem lineContext_lineFeed (t : Text) (offset : Nat) :
    lineContext ('\n' :: t) (offset + 1) = lineContext t offset := by
  rw [lineContext, Cursor.seek_lineFeed, Cursor.line_lineDown, lineContext]

end ComponentAudit
