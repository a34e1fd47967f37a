import ComponentAudit.Text.Comment
import Mathlib.Data.List.Forall2

/-! # Masked texts

Masking comments changes some characters to blanks, none of them a line feed, and leaves all others in
their places. So a word without blanks that stands in a masked text stands in the text itself. -/

namespace ComponentAudit

/-- A text and its masked form, character by character. -/
def MaskOf (t masked : Text) : Prop :=
  List.Forall₂ (fun c m => m = c ∨ m = ' ' ∧ c ≠ '\n') t masked

namespace MaskOf

variable {t masked word : Text}

theorem cons_same (c : Char) (h : MaskOf t masked) : MaskOf (c :: t) (c :: masked) := .cons (.inl rfl) h

theorem cons_blank (c : Char) (h : MaskOf t masked) : MaskOf (c :: t) (Comment.blank c :: masked) := by
  refine .cons ?_ h
  by_cases hc : c = '\n' <;> simp [Comment.blank, hc]

/-- The two characters that open or close a comment. -/
theorem cons_mark {c d : Char} (hc : c ≠ '\n') (hd : d ≠ '\n') (h : MaskOf t masked) :
    MaskOf (c :: d :: t) (' ' :: ' ' :: masked) :=
  .cons (.inr ⟨rfl, hc⟩) (.cons (.inr ⟨rfl, hd⟩) h)

theorem length_eq (h : MaskOf t masked) : masked.length = t.length := (List.Forall₂.length_eq h).symm

theorem prefix_of_no_blank (h : MaskOf t masked) (hword : ' ' ∉ word) (hp : word <+: masked) :
    word <+: t := by
  induction word generalizing t masked with
  | nil => exact List.nil_prefix
  | cons w word ih =>
    rw [List.mem_cons, not_or] at hword
    cases h with
    | nil => exact absurd hp (by simp)
    | @cons c m t masked hcm hrest =>
      obtain ⟨hwm, hbehind⟩ := List.cons_prefix_cons.mp hp
      have hsame : w = c := by
        rcases hcm with hcm | hcm
        · exact hwm.trans hcm
        · exact absurd (hwm.trans hcm.1).symm hword.1
      exact List.cons_prefix_cons.mpr ⟨hsame, ih hrest hword.2 hbehind⟩

/-- A word without blanks stands in a text wherever it stands in the masked text. -/
theorem prefix_drop (h : MaskOf t masked) (hword : ' ' ∉ word) {offset : Nat}
    (hp : word <+: masked.drop offset) : word <+: t.drop offset :=
  prefix_of_no_blank (List.forall₂_drop offset h) hword hp

end MaskOf

namespace Comment

theorem maskOf_maskScriptFrom (mode : ScriptMode) (t : Text) : MaskOf t (maskScriptFrom mode t) := by
  fun_induction maskScriptFrom mode t with
  | case1 => exact .nil
  | case2 rest ih => exact ih.cons_mark (by decide) (by decide)
  | case3 rest ih => exact ih.cons_mark (by decide) (by decide)
  | case4 c rest _ _ ih => exact ih.cons_same c
  | case5 q c rest ih => exact (ih.cons_same c).cons_same '\\'
  | case6 q c rest _ ih => exact ih.cons_same c
  | case7 c rest ih => exact ih.cons_blank c
  | case8 rest ih => exact ih.cons_mark (by decide) (by decide)
  | case9 c rest _ ih => exact ih.cons_blank c

theorem maskOf_maskScript (t : Text) : MaskOf t (maskScript t) := maskOf_maskScriptFrom .code t

theorem maskOf_maskStyleFrom (mode : StyleMode) (fresh : Bool) (t : Text) :
    MaskOf t (maskStyleFrom mode fresh t) := by
  fun_induction maskStyleFrom mode fresh t with
  | case1 => exact .nil
  | case2 _ rest ih => exact ih.cons_mark (by decide) (by decide)
  | case3 rest ih => exact ih.cons_mark (by decide) (by decide)
  | case4 _ c rest _ _ ih => exact ih.cons_same c
  | case5 _ c rest ih => exact ih.cons_blank c
  | case6 _ rest ih => exact ih.cons_mark (by decide) (by decide)
  | case7 _ c rest _ ih => exact ih.cons_blank c

theorem maskOf_maskStyle (t : Text) : MaskOf t (maskStyle t) := maskOf_maskStyleFrom .code true t

/-- In a comment it does not matter how the line began. -/
theorem maskStyleFrom_of_comment {mode : StyleMode} (hmode : mode ≠ .code) (fresh later : Bool)
    (t : Text) : maskStyleFrom mode fresh t = maskStyleFrom mode later t := by
  fun_cases maskStyleFrom mode fresh t with
  | case1 => rfl
  | case5 => rw [maskStyleFrom]
  | case6 => rw [maskStyleFrom]
  | case7 _ c rest hclose => rw [maskStyleFrom.eq_7 _ _ _ hclose]
  | _ => exact absurd rfl hmode

end Comment

end ComponentAudit
