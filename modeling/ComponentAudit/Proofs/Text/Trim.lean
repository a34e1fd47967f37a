import ComponentAudit.Proofs.Text.Reading
import ComponentAudit.Proofs.Text.Squeeze
import Mathlib.Data.List.TakeWhile

/-! # Trimmed texts

Trimming takes white space off both ends and nothing else: what is left stands inside the text, has the
same characters that are no white space, and is not trimmed any further. -/

namespace ComponentAudit.Text

theorem trimRight_append (t : Text) : ∃ spaces, Blank spaces ∧ trimRight t ++ spaces = t := by
  refine ⟨(t.reverse.takeWhile isSpace).reverse, fun c hc => ?_, ?_⟩
  · exact List.all_eq_true.mp List.all_takeWhile c (List.mem_reverse.mp hc)
  · rw [trimRight, ← List.reverse_append, List.takeWhile_append_dropWhile, List.reverse_reverse]

/-- A trimmed text stands behind the leading white space, and only white space follows it. -/
theorem drop_eq_trim_append (t : Text) :
    ∃ spaces, Blank spaces ∧ t.drop (t.takeWhile isSpace).length = trim t ++ spaces := by
  obtain ⟨spaces, hblank, heq⟩ := trimRight_append (trimLeft t)
  refine ⟨spaces, hblank, ?_⟩
  rw [drop_length_takeWhile, trim, heq, trimLeft]

theorem trim_trim (t : Text) : trim (trim t) = trim t := by
  refine trim_of_ends (fun c rest h => ?_) fun c front h => ?_
  · obtain ⟨spaces, -, heq⟩ := trimRight_append (trimLeft t)
    have hhead : (t.dropWhile isSpace).head? = some c := by
      change (trimLeft t).head? = some c
      rw [← heq, show trimRight (trimLeft t) = c :: rest from h]
      rfl
    exact head?_dropWhile_not hhead
  · have hhead : ((trimLeft t).reverse.dropWhile isSpace).head? = some c := by
      rw [trim, trimRight, List.reverse_eq_iff] at h
      rw [h]
      simp
    exact head?_dropWhile_not hhead

/-- Trimming takes off only what stands at the ends. -/
theorem trim_infix (t : Text) : trim t <:+: t := by
  obtain ⟨spaces, -, hright⟩ := trimRight_append (trimLeft t)
  exact List.IsInfix.trans ⟨[], spaces, hright⟩ (List.dropWhile_suffix _).isInfix

theorem blank_takeWhile (t : Text) : Blank (t.takeWhile isSpace) :=
  List.all_eq_true.mp List.all_takeWhile

theorem trim_of_blank {t : Text} (h : Blank t) : trim t = [] := by
  have hleft := @List.dropWhile_append_of_pos _ isSpace t [] h
  rw [List.append_nil] at hleft
  rw [trim, trimLeft, hleft]
  rfl

theorem trim_eq_nil_iff {t : Text} : trim t = [] ↔ Blank t := by
  refine ⟨fun h => ?_, trim_of_blank⟩
  obtain ⟨spaces, hspaces, hdrop⟩ := drop_eq_trim_append t
  rw [h, List.nil_append, drop_length_takeWhile] at hdrop
  rw [← List.takeWhile_append_dropWhile (p := isSpace) (l := t), hdrop]
  exact List.forall_mem_append.mpr ⟨blank_takeWhile t, hspaces⟩

/-- Nothing is left of white space that is trimmed. -/
theorem eq_nil_of_trim_eq {t : Text} (htrim : trim t = t) (hblank : Blank t) : t = [] :=
  htrim.symm.trans (trim_of_blank hblank)

/-- White space at the end has no part in what is left. -/
theorem trim_append_blank (t : Text) {behind : Text} (h : Blank behind) :
    trim (t ++ behind) = trim t := by
  by_cases hblank : Blank t
  · rw [trim_of_blank hblank, trim_of_blank (List.forall_mem_append.mpr ⟨hblank, h⟩)]
  · have hspaces : ∀ c ∈ behind.reverse, isSpace c = true := fun c hc => h c (List.mem_reverse.mp hc)
    have hink : t.dropWhile isSpace ≠ [] := fun hnil => hblank (List.dropWhile_eq_nil_iff.mp hnil)
    have hleft : trimLeft (t ++ behind) = trimLeft t ++ behind := by
      rw [trimLeft, List.dropWhile_append, if_neg (by simpa using hink), trimLeft]
    rw [trim, hleft, trimRight, List.reverse_append, List.dropWhile_append_of_pos hspaces, trim,
      trimRight]

/-- Trimming keeps every character that is no white space. -/
theorem filter_ink_trim (t : Text) : (trim t).filter (!isSpace ·) = t.filter (!isSpace ·) := by
  have hnone : ∀ {spaces : Text}, Blank spaces → spaces.filter (!isSpace ·) = [] := by
    intro spaces h
    exact List.filter_eq_nil_iff.mpr fun c hc => by simp [h c hc]
  obtain ⟨spaces, hspaces, hdrop⟩ := drop_eq_trim_append t
  have hsplit : t.takeWhile isSpace ++ (trim t ++ spaces) = t := by
    rw [← hdrop, drop_length_takeWhile, List.takeWhile_append_dropWhile]
  calc (trim t).filter (!isSpace ·)
      = (t.takeWhile isSpace ++ (trim t ++ spaces)).filter (!isSpace ·) := by
        rw [List.filter_append, List.filter_append, hnone (blank_takeWhile t), hnone hspaces,
          List.nil_append, List.append_nil]
    _ = t.filter (!isSpace ·) := by rw [hsplit]

/-! ## Texts with ink at both ends -/

/-- A text that neither opens nor ends with white space. -/
structure Inked (t : Text) : Prop where
  ne_nil : t ≠ []
  head : ∀ c, t.head? = some c → isSpace c = false
  last : ∀ c, t.getLast? = some c → isSpace c = false

/-- White space around a text is trimmed away, and no more. -/
theorem trim_blank_inked {before t behind : Text} (hbefore : Blank before) (ht : Inked t)
    (hbehind : Blank behind) : trim (before ++ (t ++ behind)) = t := by
  obtain ⟨first, rest, hfirst⟩ := List.exists_cons_of_ne_nil ht.ne_nil
  have hleft : trimLeft (before ++ t) = t := by
    have hspace := ht.head first (by simp [hfirst])
    rw [trimLeft, List.dropWhile_append_of_pos hbefore, hfirst,
      List.dropWhile_cons_of_neg (by simp [hspace])]
  rw [← List.append_assoc, trim_append_blank _ hbehind, trim, hleft]
  exact trimRight_of_last fun c front hc => ht.last c (by simp [hc])

theorem trim_blank_append {before t : Text} (hbefore : Blank before) (ht : Inked t) :
    trim (before ++ t) = t := by
  have htrim := @trim_blank_inked before t [] hbefore ht blank_nil
  rwa [List.append_nil] at htrim

end ComponentAudit.Text
