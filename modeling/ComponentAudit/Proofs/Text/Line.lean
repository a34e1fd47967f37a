import ComponentAudit.Proofs.Text.Position

/-! # Lines and the order of positions

Positions are compared in reading order, by line and then by column. A larger offset of a text has a
later position, and the line around an offset is the one that its position numbers among the parts
between line feeds. -/

namespace ComponentAudit

namespace Position

/-- A position in front of another one in reading order. -/
def Before (a b : Position) : Prop := a.line < b.line ∨ a.line = b.line ∧ a.column < b.column

/-- A position that is not behind another one. -/
def UpTo (a b : Position) : Prop := a = b ∨ a.Before b

end Position

namespace Text

/-! ## Positions -/

theorem positionAt_of_length_le {t : Text} {offset : Nat} (h : t.length ≤ offset) :
    t.positionAt offset = t.positionAt t.length := by
  simp only [positionAt, List.take_of_length_le h, List.take_length]

theorem positionAt_before {t : Text} {a b : Nat} (h : a < b) (hb : b ≤ t.length) :
    (t.positionAt a).Before (t.positionAt b) := by
  obtain ⟨passed, hpassed⟩ : t.take a <+: t.take b := List.take_prefix_take_left (by omega)
  have hcount : (t.take b).count '\n' = (t.take a).count '\n' + passed.count '\n' := by
    rw [← hpassed, List.count_append]
  by_cases hfeed : '\n' ∈ passed
  · left
    have hpos := List.count_pos_iff.mpr hfeed
    simp only [positionAt]
    omega
  · right
    have hnone := List.count_eq_zero.mpr hfeed
    have hlength := congrArg List.length hpassed
    rw [List.length_append, List.length_take, List.length_take] at hlength
    -- all of `passed` belongs to the line, in front of what belonged to it before
    have hline : (t.take b).reverse.takeWhile (· != '\n') =
        passed.reverse ++ (t.take a).reverse.takeWhile (· != '\n') := by
      rw [← hpassed, List.reverse_append, List.takeWhile_append_of_pos]
      intro c hc
      rw [List.mem_reverse] at hc
      simpa using fun he : c = '\n' => hfeed (he ▸ hc)
    simp only [positionAt, hline, List.length_append, List.length_reverse]
    omega

/-- Offsets of a text at one position are the same. -/
theorem positionAt_inj {t : Text} {a b : Nat} (ha : a ≤ t.length) (hb : b ≤ t.length)
    (h : t.positionAt a = t.positionAt b) : a = b := by
  have hnot : ∀ {a b}, a < b → b ≤ t.length → t.positionAt a ≠ t.positionAt b := by
    intro a b hlt hle hsame
    have hbefore := positionAt_before hlt hle
    rw [hsame] at hbefore
    rcases hbefore with hline | ⟨-, hcolumn⟩
    · exact Nat.lt_irrefl _ hline
    · exact Nat.lt_irrefl _ hcolumn
  rcases Nat.lt_trichotomy a b with hlt | hsame | hgt
  · exact absurd h (hnot hlt hb)
  · exact hsame
  · exact absurd h.symm (hnot hgt ha)

theorem positionAt_upTo (t : Text) {a b : Nat} (h : a ≤ b) :
    (t.positionAt a).UpTo (t.positionAt b) := by
  by_cases hin : b ≤ t.length
  · rcases Nat.eq_or_lt_of_le h with rfl | hlt
    · exact .inl rfl
    · exact .inr (positionAt_before hlt hin)
  · rw [positionAt_of_length_le (Nat.le_of_not_le hin)]
    by_cases ha : a < t.length
    · exact .inr (positionAt_before ha (Nat.le_refl _))
    · exact .inl (positionAt_of_length_le (Nat.le_of_not_lt ha))

/-! ## Lines -/

theorem consHead_append (c : Char) {parts : List Text} (h : parts ≠ []) (more : List Text) :
    consHead c (parts ++ more) = consHead c parts ++ more := by
  obtain ⟨first, rest, rfl⟩ := List.exists_cons_of_ne_nil h
  rfl

theorem length_consHead (c : Char) {parts : List Text} (h : parts ≠ []) :
    (consHead c parts).length = parts.length := by
  obtain ⟨first, rest, rfl⟩ := List.exists_cons_of_ne_nil h
  rfl

/-- The parts on either side of a separator are split on their own. -/
theorem splitOn_append_separator (separator : Char) (front rest : Text) :
    splitOn separator (front ++ separator :: rest) =
      splitOn separator front ++ splitOn separator rest := by
  induction front with
  | nil => simp [splitOn]
  | cons c front ih =>
    rw [List.cons_append, splitOn, splitOn, ih]
    split
    · rfl
    · exact consHead_append c (splitOn_ne_nil separator front) _

theorem length_splitOn (separator : Char) (t : Text) :
    (splitOn separator t).length = t.count separator + 1 := by
  induction t with
  | nil => rfl
  | cons c t ih =>
    rw [splitOn]
    by_cases hc : c = separator
    · rw [if_pos (by simpa using hc), List.length_cons, ih, hc, List.count_cons_self]
    · rw [if_neg (by simpa using hc), length_consHead c (splitOn_ne_nil separator t), ih,
        List.count_cons_of_ne hc]

theorem head?_splitOn (separator : Char) (t : Text) :
    (splitOn separator t).head? = some (t.takeWhile (· != separator)) := by
  induction t with
  | nil => rfl
  | cons c t ih =>
    rw [splitOn]
    by_cases hc : c = separator
    · simp [hc]
    · obtain ⟨first, more, hparts⟩ := List.exists_cons_of_ne_nil (splitOn_ne_nil separator t)
      rw [hparts] at ih ⊢
      simp only [List.head?_cons, Option.some.injEq] at ih
      simp [hc, consHead, ih]

/-- The line around a place is told by the line feeds in front of it. -/
theorem getElem?_splitOn_line (place : Cursor) :
    (splitOn '\n' place.text)[place.before.count '\n']? = some place.line := by
  obtain ⟨before, after⟩ := place
  -- backwards from the place to the start of its line
  induction before generalizing after with
  | nil =>
    rw [List.count_nil, ← List.head?_eq_getElem?]
    exact head?_splitOn '\n' after
  | cons c before ih =>
    by_cases hc : c = '\n'
    · have htext : (⟨c :: before, after⟩ : Cursor).text = before.reverse ++ '\n' :: after := by
        simp [Cursor.text, hc]
      have hlength : (splitOn '\n' before.reverse).length = (c :: before).count '\n' := by
        rw [length_splitOn, hc, List.count_cons_self, List.count_reverse]
      rw [htext, splitOn_append_separator, List.getElem?_append_right (Nat.le_of_eq hlength), hlength,
        Nat.sub_self, ← List.head?_eq_getElem?, head?_splitOn]
      simp [Cursor.line, Cursor.restOfLine, hc]
    · have htext : (⟨c :: before, after⟩ : Cursor).text = (⟨before, c :: after⟩ : Cursor).text := by
        simp [Cursor.text]
      have hline : (⟨c :: before, after⟩ : Cursor).line = (⟨before, c :: after⟩ : Cursor).line := by
        simp [Cursor.line, Cursor.restOfLine, hc]
      rw [htext, hline, List.count_cons_of_ne hc, ih]

end Text

/-- The context of an offset is the trimmed line that its position numbers. -/
theorem lineContext_eq (t : Text) (offset : Nat) :
    ((Text.splitOn '\n' t)[(t.positionAt offset).line - 1]?).map Text.trim =
      some (lineContext t offset) := by
  have hline := Text.getElem?_splitOn_line (Cursor.seek t offset)
  rw [Cursor.text_seek] at hline
  have hcount : (Cursor.seek t offset).before.count '\n' = (t.positionAt offset).line - 1 := by
    simp [Cursor.seek, Text.positionAt]
  rw [← hcount, hline]
  rfl

end ComponentAudit
