import ComponentAudit.Position
import ComponentAudit.Text.Token

/-! # Searches miss nothing

An occurrence of a text is a split of the searched text around it, and `Text.occurrences` finds
exactly those. A whole identifier is a split with no identifier character on either side (`TokenIn`).
What a recogniser matches at a place is collected unless an earlier match reaches over the place. -/

namespace ComponentAudit

namespace Text

theorem mem_occurrencesFrom {needle : Text} (hne : needle ≠ []) {offset p : Nat} {t : Text} :
    p ∈ occurrencesFrom needle offset t ↔
      ∃ before after, t = before ++ needle ++ after ∧ p = offset + before.length := by
  induction t generalizing offset with
  | nil => simp [occurrencesFrom, hne]
  | cons c t ih =>
    have hlater : p ∈ occurrencesFrom needle (offset + 1) t ↔
        ∃ before after, c :: t = c :: before ++ needle ++ after ∧
          p = offset + (c :: before).length := by
      rw [ih]
      simp only [List.cons_append, List.cons.injEq, true_and, List.length_cons]
      have hsum : ∀ n, offset + 1 + n = offset + (n + 1) := fun n => by omega
      simp only [hsum]
    have hhere : p ∈ (if needle.isPrefixOf (c :: t) then [offset] else []) ↔
        ∃ after, c :: t = [] ++ needle ++ after ∧ p = offset + ([] : Text).length := by
      split
      · rename_i hp
        obtain ⟨after, hafter⟩ := List.isPrefixOf_iff_prefix.mp hp
        simp [← hafter]
      · rename_i hp
        rw [List.isPrefixOf_iff_prefix] at hp
        simp only [List.not_mem_nil, false_iff, List.nil_append, not_exists, not_and]
        intro after hafter
        exact absurd ⟨after, hafter.symm⟩ hp
    have hsplit : p ∈ occurrencesFrom needle offset (c :: t) ↔
        p ∈ (if needle.isPrefixOf (c :: t) then [offset] else []) ∨
          p ∈ occurrencesFrom needle (offset + 1) t := by
      rw [occurrencesFrom]
      split <;> simp
    rw [hsplit, hhere, hlater]
    constructor
    · rintro (⟨after, h⟩ | ⟨before, after, h⟩)
      · exact ⟨[], after, h⟩
      · exact ⟨c :: before, after, h⟩
    · rintro ⟨before, after, hsplit, hp⟩
      cases before with
      | nil => exact .inl ⟨after, hsplit, hp⟩
      | cons d before =>
        obtain rfl : c = d := by simpa using congrArg List.head? hsplit
        exact .inr ⟨before, after, hsplit, hp⟩

/-- A search finds exactly the places that the text can be split at around the needle. -/
theorem mem_occurrences {t needle : Text} {p : Nat} :
    p ∈ occurrences t needle ↔
      needle ≠ [] ∧ ∃ before after, t = before ++ needle ++ after ∧ p = before.length := by
  rw [occurrences]
  cases needle with
  | nil => simp
  | cons c needle =>
    simp only [List.isEmpty_cons, Bool.false_eq_true, if_false,
      mem_occurrencesFrom (List.cons_ne_nil c needle), Nat.zero_add, ne_eq, reduceCtorEq,
      not_false_eq_true, true_and]

end Text

/-- A name stands in a text, between what is before and after it, as an identifier of its own. -/
structure TokenIn (t before name after : Text) : Prop where
  split : t = before ++ name ++ after
  left : ∀ c, before.getLast? = some c → isIdentChar c = false
  right : ∀ c, after.head? = some c → isIdentChar c = false

namespace TokenIn

variable {t before name after : Text}

theorem isWholeToken (h : TokenIn t before name after) :
    t.isWholeToken before.length (before.length + name.length) = true := by
  have hleft : before.getLast?.any isIdentChar = false := by
    cases hc : before.getLast? with
    | none => rfl
    | some c => exact h.left c hc
  have hright : after.head?.any isIdentChar = false := by
    cases hc : after.head? with
    | none => rfl
    | some c => exact h.right c hc
  have htake : t.take before.length = before := by
    rw [h.split, List.append_assoc, List.take_left]
  have hdrop : t.drop (before.length + name.length) = after := by
    rw [h.split, ← List.length_append, List.drop_left]
  rw [Text.isWholeToken, htake, hdrop, hleft, hright]
  rfl

theorem of_isWholeToken (hsplit : t = before ++ name ++ after)
    (h : t.isWholeToken before.length (before.length + name.length) = true) :
    TokenIn t before name after := by
  have htake : t.take before.length = before := by rw [hsplit, List.append_assoc, List.take_left]
  have hdrop : t.drop (before.length + name.length) = after := by
    rw [hsplit, ← List.length_append, List.drop_left]
  rw [Text.isWholeToken, htake, hdrop, Bool.and_eq_true, Bool.not_eq_true', Bool.not_eq_true'] at h
  refine ⟨hsplit, fun c hc => ?_, fun c hc => ?_⟩
  · simpa [hc] using h.1
  · simpa [hc] using h.2

theorem mem_tokensIn (h : TokenIn t before name after) (hne : name ≠ []) {start stop : Nat}
    (hstart : start ≤ before.length) (hstop : before.length + name.length ≤ stop) :
    before.length ∈ t.tokensIn name start stop := by
  refine List.mem_filter.mpr ⟨List.mem_filter.mpr ⟨?_, ?_⟩, h.isWholeToken⟩
  · exact Text.mem_occurrences.mpr ⟨hne, before, after, h.split, rfl⟩
  · simp [hstart, hstop]

theorem mem_tokens (h : TokenIn t before name after) (hne : name ≠ []) :
    before.length ∈ t.tokens name := by
  refine h.mem_tokensIn hne (Nat.zero_le _) ?_
  have hlen := congrArg List.length h.split
  simp only [List.length_append] at hlen
  omega

end TokenIn

/-! ## Lines -/

theorem lt_of_mem_lineStartsFrom {offset start : Nat} {t : Text}
    (h : start ∈ lineStartsFrom offset t) : offset < start := by
  induction t generalizing offset with
  | nil => cases h
  | cons c t ih =>
    rw [lineStartsFrom] at h
    split at h
    · rcases List.mem_cons.mp h with rfl | h
      · omega
      · have := ih h
        omega
    · have := ih h
      omega

theorem length_takeWhile_lineStartsFrom (offset n : Nat) (t : Text) :
    ((lineStartsFrom offset t).takeWhile (· ≤ offset + n)).length = (t.take n).count '\n' := by
  induction t generalizing offset n with
  | nil => simp [lineStartsFrom]
  | cons c t ih =>
    cases n with
    | zero =>
      have hnone : (lineStartsFrom offset (c :: t)).takeWhile (· ≤ offset) = [] := by
        cases hstarts : lineStartsFrom offset (c :: t) with
        | nil => rfl
        | cons start starts =>
          have hlt := lt_of_mem_lineStartsFrom (hstarts ▸ List.mem_cons_self)
          simp [hlt]
      simp [hnone]
    | succ n =>
      have hsum : offset + (n + 1) = offset + 1 + n := by omega
      have hih := ih (offset + 1) n
      by_cases hc : c = '\n'
      · simp [lineStartsFrom, hc, hsum, hih]
      · simp [lineStartsFrom, hc, hsum, hih]

/-- The line of an offset is one more than the line feeds before it. -/
theorem line_position (t : Text) (p : Nat) :
    ((LineIndex.ofText t).position p).line = (t.take p).count '\n' + 1 := by
  have hcount := length_takeWhile_lineStartsFrom 0 (min p t.length) t
  have htake : t.take (min p t.length) = t.take p := by
    rw [← List.take_take, List.take_length]
  rw [Nat.zero_add, htake] at hcount
  have hpassed : (0 :: lineStartsFrom 0 t).takeWhile (· ≤ min p t.length) =
      0 :: (lineStartsFrom 0 t).takeWhile (· ≤ min p t.length) :=
    List.takeWhile_cons_of_pos (by simp)
  change ((0 :: lineStartsFrom 0 t).takeWhile (· ≤ min p t.length)).length = _
  rw [hpassed, List.length_cons, hcount]

/-! ## Collected matches -/

namespace Cursor

theorem eq_of_text_of_offset {c d : Cursor} (htext : c.text = d.text) (hoffset : c.offset = d.offset) :
    c = d := by
  obtain ⟨before, after⟩ := c
  obtain ⟨before', after'⟩ := d
  simp only [text, offset] at htext hoffset
  obtain ⟨hb, ha⟩ := List.append_inj htext (by simpa using hoffset)
  rw [List.reverse_inj] at hb
  rw [hb, ha]

section Completeness

variable {α : Type} {recognise : Cursor → Option (α × Cursor)} {place stop : Cursor} {a : α}
  (hmatch : recognise place = some (a, stop)) (hmore : place.after ≠ [])
  (hclear : ∀ c b stop, c.text = place.text → recognise c = some (b, stop) →
    c.offset < place.offset → stop.offset ≤ place.offset)
include hmatch hmore hclear

theorem mem_collectFrom_of_clear {covered : Nat} {before t : Text}
    (htext : before.reverse ++ t = place.text) (hreach : before.length + covered ≤ place.offset) :
    a ∈ collectFrom recognise covered before t := by
  induction t generalizing covered before with
  | nil =>
    have hlen := congrArg List.length htext
    have hpos := List.length_pos_iff.mpr hmore
    simp only [text, List.length_append, List.length_reverse, List.length_nil] at hlen
    simp only [offset] at hreach
    omega
  | cons d t ih =>
    have hnext : (d :: before).reverse ++ t = place.text := by simpa using htext
    cases covered with
    | succ covered =>
      rw [collectFrom]
      refine ih hnext ?_
      simp only [List.length_cons]
      omega
    | zero =>
      by_cases hhere : before.length = place.offset
      · have hplace : (⟨before, d :: t⟩ : Cursor) = place := eq_of_text_of_offset htext hhere
        rw [collectFrom, hplace, hmatch]
        exact List.mem_cons_self
      · rw [collectFrom]
        split
        · refine ih hnext ?_
          simp only [List.length_cons]
          omega
        · rename_i b stop' hfound
          have hlt : before.length < place.offset := Nat.lt_of_le_of_ne hreach hhere
          have hstop := hclear ⟨before, d :: t⟩ b stop' htext hfound hlt
          refine List.mem_cons_of_mem b (ih hnext ?_)
          simp only [List.length_cons]
          omega

/-- A match that no earlier match reaches over is collected. -/
theorem mem_collect_of_clear : a ∈ collect recognise place.text :=
  mem_collectFrom_of_clear hmatch hmore hclear rfl (Nat.zero_le _)

end Completeness

end Cursor

end ComponentAudit
