import ComponentAudit.Proofs.Script.Declarator

/-! # Texts in brackets

A text is nested if it has no quotes and its brackets of every kind are balanced. Nested texts may stand
one behind the other and in brackets of their own, and a search for a closing bracket passes over
them. -/

namespace ComponentAudit

namespace Text

theorem Balanced.append {pair : Char × Char} {s t : Text} (hs : Balanced pair s)
    (ht : Balanced pair t) : Balanced pair (s ++ t) where
  covered n hn := by
    rw [List.take_append, List.count_append, List.count_append]
    by_cases hin : n ≤ s.length
    · rw [Nat.sub_eq_zero_of_le hin, List.take_zero]
      exact hs.covered n hin
    · have hclosed := hs.closed
      rw [List.length_append] at hn
      have hcovered := ht.covered (n - s.length) (by omega)
      rw [List.take_of_length_le (Nat.le_of_not_le hin)]
      omega
  closed := by rw [List.count_append, List.count_append, hs.closed, ht.closed]

theorem balanced_of_not_mem {pair : Char × Char} {t : Text} (hopen : pair.1 ∉ t)
    (hclose : pair.2 ∉ t) : Balanced pair t where
  covered n _ := by
    rw [List.count_eq_zero_of_not_mem fun hmem => hclose (List.mem_of_mem_take hmem)]
    exact Nat.zero_le _
  closed := by rw [List.count_eq_zero_of_not_mem hopen, List.count_eq_zero_of_not_mem hclose]

/-- Balanced brackets with one more pair around them. -/
theorem Balanced.wrap {pair : Char × Char} {t : Text} (hne : pair.1 ≠ pair.2) (h : Balanced pair t) :
    Balanced pair (pair.1 :: (t ++ [pair.2])) where
  covered n hn := by
    cases n with
    | zero => exact Nat.le_refl _
    | succ n =>
      rw [List.take_succ_cons, List.take_append, List.count_cons_self,
        List.count_cons_of_ne hne, List.count_append, List.count_append]
      have hlast := List.Sublist.count_le pair.2 (List.take_sublist (n - t.length) [pair.2])
      rw [List.count_singleton_self] at hlast
      by_cases hin : n ≤ t.length
      · have hcovered := h.covered n hin
        omega
      · have hclosed := h.closed
        rw [List.take_of_length_le (Nat.le_of_not_le hin)]
        omega
  closed := by
    have hclosed := h.closed
    rw [List.count_cons_self, List.count_cons_of_ne hne, List.count_append, List.count_append,
      List.count_singleton_self, List.count_singleton]
    simp only [beq_iff_eq, hne.symm, if_false]
    omega

/-- A text without quotes in which all brackets are balanced. -/
structure Nested (t : Text) : Prop where
  unquoted : ∀ c ∈ t, isQuote c = false
  balanced : ∀ pair ∈ roundPairs, Balanced pair t

instance (t : Text) : Decidable (Nested t) :=
  decidable_of_iff ((t.all fun c => !isQuote c) = true ∧
      (roundPairs.all fun pair => decide (Balanced pair t)) = true) <| by
    simp only [List.all_eq_true, Bool.not_eq_true', decide_eq_true_eq]
    exact ⟨fun h => ⟨h.1, h.2⟩, fun h => ⟨h.unquoted, h.balanced⟩⟩

theorem Nested.append {s t : Text} (hs : Nested s) (ht : Nested t) : Nested (s ++ t) where
  unquoted c hc := (List.mem_append.mp hc).elim (hs.unquoted c) (ht.unquoted c)
  balanced pair hpair := (hs.balanced pair hpair).append (ht.balanced pair hpair)

/-- The characters that brackets and quotes are told by. -/
def isBracketOrQuote (c : Char) : Bool :=
  isQuote c || roundPairs.any fun pair => c == pair.1 || c == pair.2

theorem nested_of_plain {t : Text} (h : ∀ c ∈ t, isBracketOrQuote c = false) : Nested t where
  unquoted c hc := (Bool.or_eq_false_iff.mp (h c hc)).1
  balanced pair hpair := by
    have hnot : ∀ c ∈ t, c ≠ pair.1 ∧ c ≠ pair.2 := by
      intro c hc
      have hnone := List.any_eq_false.mp (Bool.or_eq_false_iff.mp (h c hc)).2 pair hpair
      simpa using hnone
    exact balanced_of_not_mem (fun hmem => (hnot _ hmem).1 rfl) fun hmem => (hnot _ hmem).2 rfl

theorem Nested.brackets {t : Text} {pair : Char × Char} (h : Nested t) (hpair : pair ∈ roundPairs) :
    Nested (pair.1 :: (t ++ [pair.2])) where
  unquoted c hc := by
    have hquotes : ∀ pair ∈ roundPairs, isQuote pair.1 = false ∧ isQuote pair.2 = false := by decide
    rw [List.mem_cons, List.mem_append, List.mem_singleton] at hc
    rcases hc with rfl | hc | rfl
    · exact (hquotes pair hpair).1
    · exact h.unquoted c hc
    · exact (hquotes pair hpair).2
  balanced other hother := by
    have hpairs : ∀ pair ∈ roundPairs, ∀ other ∈ roundPairs, pair.1 ≠ pair.2 ∧
        (other = pair ∨ other.1 ∉ [pair.1] ∧ other.2 ∉ [pair.1] ∧ other.1 ∉ [pair.2] ∧
          other.2 ∉ [pair.2]) := by decide
    obtain ⟨hne, rfl | ⟨hopen, hopen', hclose, hclose'⟩⟩ := hpairs pair hpair other hother
    · exact (h.balanced other hother).wrap hne
    · -- brackets of another kind do not count
      have hfront := balanced_of_not_mem hopen hopen'
      have hback := balanced_of_not_mem hclose hclose'
      exact hfront.append ((h.balanced other hother).append hback)

end Text

namespace Bracket

variable {opener closer : Char}

/-- Outside quotes the character just passed does not matter. -/
theorem closingFrom_prev (depth : Int) (prev prev' : Char) (offset : Nat) (t : Text) :
    closingFrom opener closer depth none prev offset t =
      closingFrom opener closer depth none prev' offset t := by
  cases t <;> rfl

/-- The depth follows the brackets, and a bracket that was opened before does not end the search. -/
theorem closingFrom_cons {front rest : Text} {c prev : Char} {offset : Nat} (hquote : isQuote c = false)
    (hne : opener ≠ closer)
    (hnext : (front ++ [c]).count closer ≤ (front ++ [c]).count opener) :
    closingFrom opener closer (1 + front.count opener - front.count closer) none prev offset
        (c :: rest) =
      closingFrom opener closer (1 + (front ++ [c]).count opener - (front ++ [c]).count closer) none
        prev (offset + 1) rest := by
  rw [closingFrom_prev (1 + (front ++ [c]).count opener - (front ++ [c]).count closer) prev c]
  simp only [List.count_append, List.count_singleton] at hnext ⊢
  by_cases hopen : c = opener
  · subst hopen
    have hother : (c == closer) = false := by simpa using hne
    simp only [closingFrom, hquote, beq_self_eq_true, hother, Bool.false_eq_true, if_false, if_true]
    congr 1
    omega
  · have hopen' : (c == opener) = false := by simpa using hopen
    by_cases hclose : c = closer
    · subst hclose
      simp only [hopen', beq_self_eq_true, Bool.false_eq_true, if_false, if_true] at hnext
      have hdeep : ((1 + front.count opener - front.count c : Int) - 1 == 0) = false := by
        rw [beq_eq_false_iff_ne]
        omega
      simp only [closingFrom, hquote, hopen', beq_self_eq_true, hdeep, Bool.false_eq_true, if_false,
        if_true]
      congr 1
      omega
    · have hclose' : (c == closer) = false := by simpa using hclose
      simp only [closingFrom, hquote, hopen', hclose', Bool.false_eq_true, if_false]
      rfl

/-- The search for a closing bracket passes over a balanced text. -/
theorem closingFrom_balanced {front back rest : Text} {prev : Char} {offset : Nat}
    (hquotes : ∀ c ∈ back, isQuote c = false) (hne : opener ≠ closer)
    (h : Text.Balanced (opener, closer) (front ++ back)) :
    closingFrom opener closer (1 + front.count opener - front.count closer) none prev offset
        (back ++ rest) =
      closingFrom opener closer 1 none prev (offset + back.length) rest := by
  -- the text that is left, with the depth behind what was read of it
  induction back generalizing front offset with
  | nil =>
    have hclosed := h.closed
    rw [List.append_nil] at hclosed
    have hdepth : (1 + front.count opener - front.count closer : Int) = 1 := by
      simp only at hclosed
      omega
    rw [hdepth]
    rfl
  | cons c back ih =>
    obtain ⟨hc, hback⟩ := List.forall_mem_cons.mp hquotes
    have hsplit : front ++ c :: back = (front ++ [c]) ++ back := by simp
    rw [hsplit] at h
    rw [List.cons_append, closingFrom_cons hc hne h.count_le, ih hback h, List.length_cons]
    congr 1
    omega

/-- A bracket around a nested text is closed by its own partner. -/
theorem closing?_brackets {t : Text} (h : t.Nested) (hpair : (opener, closer) ∈ roundPairs)
    (rest : Text) : closing? opener closer (opener :: (t ++ closer :: rest)) = some (t.length + 1) := by
  have hpairs : ∀ pair ∈ roundPairs, pair.1 ≠ pair.2 ∧ isQuote pair.2 = false := by decide
  obtain ⟨hne, hquote⟩ := hpairs _ hpair
  have hother : (closer == opener) = false := by simpa using hne.symm
  have hpass : closingFrom opener closer 1 none opener 1 (t ++ closer :: rest) =
      closingFrom opener closer 1 none opener (1 + t.length) (closer :: rest) :=
    @closingFrom_balanced opener closer [] t (closer :: rest) opener 1 h.unquoted hne
      (h.balanced _ hpair)
  simp only at hquote
  simp only [closing?, beq_self_eq_true, if_true, hpass, closingFrom, hquote, hother,
    Bool.false_eq_true, if_false, Int.sub_self, Nat.add_comm]

end Bracket

end ComponentAudit
