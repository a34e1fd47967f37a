import ComponentAudit.Text.Lowercase

/-! # Lower case around a slash

A slash has no case and is not passed over in the search for a neighbour's case, so lower-casing a path
lower-cases its parts, and no other character becomes a slash. -/

namespace ComponentAudit.Text

theorem opensCased_append_slash (t rest : Text) : opensCased (t ++ '/' :: rest) = opensCased t := by
  have hskip : isCaseSkipped '/' = false := by decide
  have hcased : isCased '/' = false := by decide
  rw [opensCased, opensCased, List.dropWhile_append]
  cases h : t.dropWhile isCaseSkipped with
  | nil => simp [hskip, hcased]
  | cons c t => simp

theorem lowerChar_before_slash (before after front : Text) (c : Char) :
    lowerChar (before ++ '/' :: front) c after = lowerChar before c after := by
  rw [lowerChar, lowerChar, opensCased_append_slash]

theorem lowerChar_after_slash (before after back : Text) (c : Char) :
    lowerChar before c (after ++ '/' :: back) = lowerChar before c after := by
  rw [lowerChar, lowerChar, opensCased_append_slash]

theorem lowerFrom_before_slash (before front t : Text) :
    lowerFrom (before ++ '/' :: front) t = lowerFrom before t := by
  induction t generalizing before with
  | nil => rfl
  | cons c t ih => rw [lowerFrom, lowerFrom, lowerChar_before_slash, ← List.cons_append, ih]

theorem lowerFrom_append_slash (before t rest : Text) :
    lowerFrom before (t ++ '/' :: rest) = lowerFrom before t ++ '/' :: lower rest := by
  induction t generalizing before with
  | nil =>
    have hslash : lowerChar before '/' rest = ['/'] := by simp [lowerChar, isAsciiCapital]
    have hrest : lowerFrom ('/' :: before) rest = lower rest := lowerFrom_before_slash [] before rest
    simp only [List.nil_append, lowerFrom, hslash, hrest, List.singleton_append]
  | cons c t ih =>
    rw [List.cons_append, lowerFrom, lowerFrom, lowerChar_after_slash, ih, List.append_assoc]

/-- Lower-casing a path lower-cases what is on either side of a slash. -/
theorem lower_append_slash (t rest : Text) : lower (t ++ '/' :: rest) = lower t ++ '/' :: lower rest :=
  lowerFrom_append_slash [] t rest

/-! ## No new slash -/

/-- The lower-case form of a capital beyond ASCII is no slash. -/
theorem ne_slash_of_capitals {n m : Nat} (h : CaseTable.capitals.findSome? (·.lower? n) = some m) :
    Char.ofNat m ≠ '/' := by
  have htargets : ∀ run ∈ CaseTable.capitals, 47 < run.target := by decide +kernel
  obtain ⟨run, hrun, hm⟩ := List.exists_of_findSome?_eq_some h
  unfold CaseTable.Run.lower? at hm
  split at hm
  · have hlarge := htargets run hrun
    have hlt : 47 < m := by
      rw [← Option.some.inj hm]
      omega
    intro hslash
    by_cases hvalid : m.isValidChar
    · have hcode : (Char.ofNat m).toNat = m := by
        rw [Char.ofNat, dif_pos hvalid]
        rfl
      rw [hslash] at hcode
      exact absurd hlt (by rw [← hcode]; decide)
    · rw [Char.ofNat, dif_neg hvalid] at hslash
      exact absurd hslash (by decide)
  · cases hm

theorem eq_slash_of_mem_lowerChar {before after : Text} {c : Char} (h : '/' ∈ lowerChar before c after) :
    c = '/' := by
  simp only [lowerChar] at h
  split at h
  · have hc := List.mem_singleton.mp h
    split at hc
    · rename_i hcapital
      simp only [isAsciiCapital, Bool.and_eq_true, decide_eq_true_eq] at hcapital
      have hvalid : (c.toNat + 32).isValidChar := .inl (by omega)
      have hcode : (Char.ofNat (c.toNat + 32)).toNat = c.toNat + 32 := by
        rw [Char.ofNat, dif_pos hvalid]
        rfl
      rw [← hc] at hcode
      have hslash : ('/' : Char).toNat = 47 := rfl
      omega
    · exact hc.symm
  · rename_i hlarge
    split at h
    · exact absurd h (by decide)
    · split at h
      · split at h
        · exact absurd h (by decide)
        · exact absurd h (by decide)
      · have hc := List.mem_singleton.mp h
        cases hlower : CaseTable.capitals.findSome? (·.lower? c.toNat) with
        | none =>
          rw [hlower] at hc
          exact hc.symm
        | some m =>
          rw [hlower] at hc
          exact absurd hc.symm (ne_slash_of_capitals hlower)

/-- Lower-casing makes no slash. -/
theorem slash_not_mem_lower {t : Text} (h : '/' ∉ t) : '/' ∉ lower t := by
  have hfrom : ∀ (t before : Text), '/' ∈ lowerFrom before t → '/' ∈ t := by
    intro t
    induction t with
    | nil => intro before hmem; cases hmem
    | cons c t ih =>
      intro before hmem
      rcases List.mem_append.mp hmem with hmem | hmem
      · rw [eq_slash_of_mem_lowerChar hmem]
        exact List.mem_cons_self
      · exact List.mem_cons_of_mem c (ih _ hmem)
  exact fun hmem => h (hfrom t [] hmem)

end ComponentAudit.Text
