import ComponentAudit.Text.Basic

/-! # Splitting what was joined

A text without the separator is its own only part, so parts without the separator are what their
join splits into. -/

namespace ComponentAudit.Text

theorem splitOn_of_not_mem {separator : Char} {t : Text} (h : separator ∉ t) :
    splitOn separator t = [t] := by
  induction t with
  | nil => rfl
  | cons c t ih =>
    simp only [List.mem_cons, not_or] at h
    have hc : (c == separator) = false := by simpa using fun he : c = separator => h.1 he.symm
    rw [splitOn, hc, ih h.2]
    rfl

theorem splitOn_append_cons {separator : Char} {first : Text} (h : separator ∉ first) (rest : Text) :
    splitOn separator (first ++ separator :: rest) = first :: splitOn separator rest := by
  induction first with
  | nil => simp [splitOn]
  | cons c first ih =>
    simp only [List.mem_cons, not_or] at h
    have hc : (c == separator) = false := by simpa using fun he : c = separator => h.1 he.symm
    rw [List.cons_append, splitOn, hc, ih h.2]
    rfl

theorem join_cons_cons (separator first next : Text) (more : List Text) :
    join separator (first :: next :: more) = first ++ separator ++ join separator (next :: more) := by
  simp [join, List.intercalate]

theorem join_singleton (separator t : Text) : join separator [t] = t := by
  simp [join]

/-- Joined parts without the separator are split back. -/
theorem splitOn_join {separator : Char} {parts : List Text} (hne : parts ≠ [])
    (h : ∀ part ∈ parts, separator ∉ part) : splitOn separator (join [separator] parts) = parts := by
  induction parts with
  | nil => exact absurd rfl hne
  | cons first more ih =>
    have hfirst := h first List.mem_cons_self
    cases more with
    | nil => rw [join_singleton, splitOn_of_not_mem hfirst]
    | cons next more =>
      rw [join_cons_cons, List.append_assoc, List.singleton_append, splitOn_append_cons hfirst,
        ih (by simp) fun part hpart => h part (List.mem_cons_of_mem first hpart)]

theorem join_concat (separator last : Text) {parts : List Text} (hne : parts ≠ []) :
    join separator (parts ++ [last]) = join separator parts ++ separator ++ last := by
  induction parts with
  | nil => exact absurd rfl hne
  | cons first more ih =>
    cases more with
    | nil => simp [join, List.intercalate]
    | cons next more =>
      rw [List.cons_append, List.cons_append, join_cons_cons, ← List.cons_append, ih (by simp),
        join_cons_cons]
      simp only [List.append_assoc]

/-- A character of joined parts is one of the separator or of a part. -/
theorem mem_join {c : Char} {separator : Text} {parts : List Text} (h : c ∈ join separator parts) :
    c ∈ separator ∨ ∃ part ∈ parts, c ∈ part := by
  induction parts with
  | nil => cases h
  | cons first more ih =>
    cases more with
    | nil => exact .inr ⟨first, List.mem_cons_self, join_singleton separator first ▸ h⟩
    | cons next more =>
      rw [join_cons_cons, List.append_assoc, List.mem_append, List.mem_append] at h
      rcases h with h | h | h
      · exact .inr ⟨first, List.mem_cons_self, h⟩
      · exact .inl h
      · exact (ih h).imp_right fun ⟨part, hpart, hc⟩ => ⟨part, List.mem_cons_of_mem first hpart, hc⟩

end ComponentAudit.Text
