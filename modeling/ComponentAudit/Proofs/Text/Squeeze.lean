import ComponentAudit.Proofs.Text.Split

/-! # Words, squeezing and trimming

A squeezed text is its words with one blank between neighbours. It opens and ends with a character
that is not white space, so trimming leaves it alone. -/

namespace ComponentAudit.Text

/-- A word is not empty and holds no white space. -/
theorem word_spec (t : Text) : ∀ w ∈ words t, w ≠ [] ∧ ∀ c ∈ w, isSpace c = false := by
  induction t with
  | nil => intro w hw; simp [words] at hw
  | cons c rest ih =>
    intro w hw
    rw [words] at hw
    split at hw
    · exact ih w hw
    · rename_i hc
      have hc : isSpace c = false := by simpa using hc
      split at hw
      · rcases List.mem_cons.mp hw with rfl | hw
        · exact ⟨by simp, by simpa using hc⟩
        · exact ih w hw
      · cases hwords : words rest with
        | nil => simp_all [consHead]
        | cons first more =>
          rw [hwords] at hw ih
          rcases List.mem_cons.mp hw with rfl | hw
          · refine ⟨by simp, fun d hd => ?_⟩
            rcases List.mem_cons.mp hd with rfl | hd
            · exact hc
            · exact (ih first (by simp)).2 d hd
          · exact ih w (by simp [hw])

theorem join_cons_eq (separator w : Text) (more : List Text) :
    ∃ tail, join separator (w :: more) = w ++ tail := by
  cases more with
  | nil => exact ⟨[], by rw [join_singleton, List.append_nil]⟩
  | cons next more =>
    exact ⟨separator ++ join separator (next :: more), by rw [join_cons_cons, List.append_assoc]⟩

theorem join_eq_append_getLast (separator : Text) {parts : List Text} (h : parts ≠ []) :
    ∃ head, join separator parts = head ++ parts.getLast h := by
  have hparts := List.dropLast_concat_getLast h
  by_cases hfront : parts.dropLast = []
  · rw [hfront, List.nil_append] at hparts
    refine ⟨[], ?_⟩
    rw [List.nil_append, ← join_singleton separator (parts.getLast h), hparts]
  · have hjoin := join_concat separator (parts.getLast h) hfront
    rw [hparts] at hjoin
    exact ⟨_, hjoin⟩

/-- A squeezed text opens with no white space. -/
theorem head_squeeze {t rest : Text} {c : Char} (h : squeeze t = c :: rest) : isSpace c = false := by
  cases hwords : words t with
  | nil => simp [squeeze, hwords, join] at h
  | cons w more =>
    obtain ⟨hne, hink⟩ := word_spec t w (by simp [hwords])
    obtain ⟨tail, htail⟩ := join_cons_eq " " w more
    rw [squeeze, hwords, htail] at h
    cases w with
    | nil => exact absurd rfl hne
    | cons d w =>
      simp only [List.cons_append, List.cons.injEq] at h
      exact hink c (by simp [h.1])

/-- A squeezed text ends with no white space. -/
theorem last_squeeze {t front : Text} {c : Char} (h : squeeze t = front ++ [c]) :
    isSpace c = false := by
  cases hwords : words t with
  | nil => simp [squeeze, hwords, join] at h
  | cons w more =>
    have hne : words t ≠ [] := by simp [hwords]
    obtain ⟨head, hhead⟩ := join_eq_append_getLast " " hne
    obtain ⟨hne, hink⟩ := word_spec t _ (List.getLast_mem hne)
    rw [squeeze, hhead] at h
    obtain ⟨w, d, hw⟩ := List.eq_nil_or_concat _ |>.resolve_left hne
    rw [hw, List.concat_eq_append, ← List.append_assoc] at h
    have hd : d = c := (List.append_inj' h rfl).2 |> List.head_eq_of_cons_eq
    exact hink c (by rw [hw, ← hd]; simp)

theorem trimLeft_of_head {t : Text} (h : ∀ c rest, t = c :: rest → isSpace c = false) :
    trimLeft t = t := by
  cases t with
  | nil => rfl
  | cons c rest => exact List.dropWhile_cons_of_neg (by simp [h c rest rfl])

theorem trimRight_of_last {t : Text} (h : ∀ c front, t = front ++ [c] → isSpace c = false) :
    trimRight t = t := by
  have hrev := @trimLeft_of_head t.reverse fun c rest hr =>
    h c rest.reverse (by simpa using congrArg List.reverse hr)
  rw [trimLeft] at hrev
  rw [trimRight, hrev, List.reverse_reverse]

theorem trim_of_ends {t : Text} (hhead : ∀ c rest, t = c :: rest → isSpace c = false)
    (hlast : ∀ c front, t = front ++ [c] → isSpace c = false) : trim t = t := by
  rw [trim, trimLeft_of_head hhead, trimRight_of_last hlast]

theorem trimRight_squeezed {t : Text} (h : squeeze t = t) : trimRight t = t :=
  trimRight_of_last fun _ _ ht => last_squeeze (h.trans ht)

theorem trimLeft_squeezed {t : Text} (h : squeeze t = t) : trimLeft t = t :=
  trimLeft_of_head fun _ _ ht => head_squeeze (h.trans ht)

theorem trim_squeezed {t : Text} (h : squeeze t = t) : trim t = t := by
  rw [trim, trimLeft_squeezed h, trimRight_squeezed h]

/-- A text without white space is left alone by trimming. -/
theorem trim_of_forall {t : Text} (h : ∀ c ∈ t, isSpace c = false) : trim t = t :=
  trim_of_ends (fun c _ ht => h c (by simp [ht])) (fun c _ ht => h c (by simp [ht]))

end ComponentAudit.Text
