import ComponentAudit.Proofs.Text.Occurrence

/-! # Positions read off the text

The index of line starts gives the line and column that counting gives: the line feeds in front of an
offset, and the characters behind the last of them. -/

namespace ComponentAudit

/-- The position of an offset, counted in the text in front of it. -/
def Text.positionAt (t : Text) (offset : Nat) : Position where
  line := (t.take offset).count '\n' + 1
  column := ((t.take offset).reverse.takeWhile (· != '\n')).length + 1

/-- Where the line that a text ends in starts, for a text given backwards. -/
def lastLineStart (before : Text) : Nat := before.length - (before.takeWhile (· != '\n')).length

theorem lastLineStart_cons_lineFeed (before : Text) :
    lastLineStart ('\n' :: before) = before.length + 1 := by
  simp [lastLineStart]

theorem lastLineStart_cons_of_ne {c : Char} (h : c ≠ '\n') (before : Text) :
    lastLineStart (c :: before) = lastLineStart before := by
  simp [lastLineStart, h]

/-- The last line start that a search passes is where the line at its end starts. -/
theorem getLastD_takeWhile_lineStartsFrom (before t : Text) {n : Nat} (h : n ≤ t.length) :
    ((lineStartsFrom before.length t).takeWhile (· ≤ before.length + n)).getLastD
        (lastLineStart before) = lastLineStart ((t.take n).reverse ++ before) := by
  induction t generalizing before n with
  | nil => simp [lineStartsFrom]
  | cons c t ih =>
    cases n with
    | zero =>
      have hnone : ((lineStartsFrom before.length (c :: t)).takeWhile (· ≤ before.length + 0)) = [] := by
        cases hstarts : lineStartsFrom before.length (c :: t) with
        | nil => rfl
        | cons start starts =>
          have hlt := lt_of_mem_lineStartsFrom (hstarts ▸ List.mem_cons_self)
          exact List.takeWhile_cons_of_neg (by simpa using hlt)
      rw [hnone]
      rfl
    | succ n =>
      have hsum : before.length + (n + 1) = (c :: before).length + n := by
        rw [List.length_cons]
        omega
      have hrest := ih (c :: before) (n := n) (by simpa using h)
      rw [List.take_succ_cons, List.reverse_cons, List.append_assoc, List.singleton_append, ← hrest,
        hsum, lineStartsFrom]
      by_cases hc : c = '\n'
      · rw [if_pos (by simpa using hc), List.takeWhile_cons_of_pos (by simp),
          List.getLastD_cons, hc, lastLineStart_cons_lineFeed]
        rfl
      · rw [if_neg (by simpa using hc), lastLineStart_cons_of_ne hc]
        rfl

theorem position_eq_positionAt (t : Text) (offset : Nat) :
    (LineIndex.ofText t).position offset = t.positionAt offset := by
  have htake : t.take (min offset t.length) = t.take offset := by
    rw [← List.take_take, List.take_length]
  have hle := (List.takeWhile_prefix (l := (t.take offset).reverse) (· != '\n')).length_le
  have hlast := getLastD_takeWhile_lineStartsFrom [] t (Nat.min_le_right offset t.length)
  simp only [List.length_nil, Nat.zero_add, List.append_nil, htake, lastLineStart,
    List.length_reverse, List.length_take, List.takeWhile_nil, Nat.sub_self] at hlast hle
  have hcolumn : ((LineIndex.ofText t).position offset).column = (t.positionAt offset).column := by
    change min offset t.length -
      ((0 :: lineStartsFrom 0 t).takeWhile (· ≤ min offset t.length)).getLastD 0 + 1 =
        ((t.take offset).reverse.takeWhile (· != '\n')).length + 1
    rw [List.takeWhile_cons_of_pos (by simp), List.getLastD_cons, hlast]
    omega
  have hline : ((LineIndex.ofText t).position offset).line = (t.positionAt offset).line :=
    line_position t offset
  calc (LineIndex.ofText t).position offset
      = ⟨((LineIndex.ofText t).position offset).line,
          ((LineIndex.ofText t).position offset).column⟩ := rfl
    _ = t.positionAt offset := by rw [hline, hcolumn]

end ComponentAudit
