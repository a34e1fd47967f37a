import ComponentAudit.Text.Basic

/-! # Cuts

A text is cut at the first place where the needle stands, so nothing behind that place has a part in
the cut, and the part in front of a single character does not hold it. -/

namespace ComponentAudit.Text

theorem cut?_eq_none {needle t : Text} : cut? needle t = none ↔ ¬ needle <:+: t := by
  rw [← mentions_iff_infix, mentions, Bool.not_eq_true, Option.isSome_eq_false_iff,
    Option.isNone_iff_eq_none]

/-- A cut is made at the first place, and what follows has no part in it. -/
theorem cut?_append {needle head tail : Text} (hne : needle ≠ [])
    (h : cut? needle (head ++ needle ++ tail) = some (head, tail)) (other : Text) :
    cut? needle (head ++ needle ++ other) = some (head, other) := by
  induction head with
  | nil =>
    obtain ⟨n, needle, rfl⟩ := List.exists_cons_of_ne_nil hne
    simp [cut?]
  | cons c head ih =>
    have hlen : needle.length ≤ (c :: head ++ needle).length := by simp; omega
    have hskip : ∀ rest, needle.isPrefixOf (c :: head ++ needle ++ rest) =
        needle.isPrefixOf (c :: head ++ needle) := by
      intro rest
      rw [Bool.eq_iff_iff, List.isPrefixOf_iff_prefix, List.isPrefixOf_iff_prefix]
      exact ⟨fun hp => List.prefix_of_prefix_length_le hp (List.prefix_append _ _) hlen,
        fun hp => hp.trans (List.prefix_append _ _)⟩
    have hnot : needle.isPrefixOf (c :: head ++ needle) = false := by
      by_cases hp : needle.isPrefixOf (c :: head ++ needle) = true
      · rw [List.cons_append, List.cons_append, cut?, ← List.cons_append, ← List.cons_append,
          hskip tail, if_pos hp] at h
        simp at h
      · exact Bool.not_eq_true _ ▸ hp
    have hrest : cut? needle (head ++ needle ++ tail) = some (head, tail) := by
      rw [List.cons_append, List.cons_append, cut?, ← List.cons_append, ← List.cons_append,
        hskip tail, hnot] at h
      simpa using h
    rw [List.cons_append, List.cons_append, cut?, ← List.cons_append, ← List.cons_append,
      hskip other, hnot, ih hrest]
    rfl

/-- A cut at a character is made where the character stands first. -/
theorem cut?_of_not_mem {d : Char} {t : Text} (h : d ∉ t) (more : Text) :
    cut? [d] (t ++ d :: more) = some (t, more) := by
  induction t with
  | nil => simp [cut?]
  | cons c t ih =>
    have hc : d ≠ c := fun he => h (by simp [he])
    have ht : d ∉ t := fun he => h (by simp [he])
    simp [cut?, hc, ih ht]

theorem not_mem_of_cut? {x : Char} {t head tail : Text} (h : cut? [x] t = some (head, tail)) :
    x ∉ head := by
  induction t generalizing head tail with
  | nil => simp [cut?] at h
  | cons c t ih =>
    rw [cut?] at h
    split at h
    · simp only [Option.some.injEq, Prod.mk.injEq] at h
      simp [← h.1]
    · rename_i hc
      obtain ⟨⟨front, rest⟩, hfront, heq⟩ := Option.map_eq_some_iff.mp h
      simp only [Prod.mk.injEq] at heq
      have hne : x ≠ c := by simpa [List.isPrefixOf] using hc
      simp [← heq.1, hne, ih hfront]

/-- Behind the first of some characters lies all that is behind any of them. -/
theorem suffix_of_first {x : Char} {front rest front' rest' : Text} (hx : x ∉ front)
    (h : front ++ x :: rest = front' ++ x :: rest') : rest' <:+ rest := by
  rcases List.append_eq_append_iff.mp h with ⟨more, rfl, hmore⟩ | ⟨more, rfl, hmore⟩
  · cases more with
    | nil => exact ⟨[], (List.cons.inj hmore).2.symm⟩
    | cons d more => exact ⟨more ++ [x], by rw [(List.cons.inj hmore).2]; simp⟩
  · cases more with
    | nil => exact ⟨[], (List.cons.inj hmore).2⟩
    | cons d more => exact absurd (List.cons.inj hmore).1 fun hd => hx (by simp [hd])

/-- A needle does not start in front of the first place where its first character stands. -/
theorem cut?_skip {n : Char} {needle word t : Text} (h : n ∉ word) :
    cut? (n :: needle) (word ++ t) =
      (cut? (n :: needle) t).map fun (head, tail) => (word ++ head, tail) := by
  induction word with
  | nil => simp
  | cons c word ih =>
    obtain ⟨hc, hword⟩ := not_or.mp (mt List.mem_cons.mpr h)
    have hskip : List.isPrefixOf (n :: needle) (c :: (word ++ t)) = false := by
      simp [List.isPrefixOf, hc]
    rw [List.cons_append, cut?, hskip, ih hword]
    simp [Function.comp_def]

end ComponentAudit.Text
