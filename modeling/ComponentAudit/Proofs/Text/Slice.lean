import ComponentAudit.Component.Region

/-! # Parts of a text between two offsets

A part is cut to its length, what is cut off a part is a part again, a part grows by the next character,
and a word that stands at an offset is the part behind it. -/

namespace ComponentAudit.Text

theorem length_slice {t : Text} {stop : Nat} (start : Nat) (h : stop ≤ t.length) :
    (t.slice start stop).length = stop - start := by
  rw [slice, List.length_take, List.length_drop]
  omega

theorem drop_slice (t : Text) (start stop n : Nat) :
    (t.slice start stop).drop n = t.slice (start + n) stop := by
  rw [slice, slice, List.drop_take, List.drop_drop]
  congr 1
  omega

theorem take_slice {t : Text} {start middle stop : Nat} (h : middle ≤ stop) :
    (t.slice start stop).take (middle - start) = t.slice start middle := by
  rw [slice, slice, List.take_take]
  congr 1
  omega

theorem slice_zero_length (t : Text) : t.slice 0 t.length = t := by
  simp [slice]

theorem slice_of_prefix {t word : Text} {offset : Nat} (h : word <+: t.drop offset) :
    t.slice offset (offset + word.length) = word := by
  rw [slice, Nat.add_sub_cancel_left]
  exact (List.prefix_iff_eq_take.mp h).symm

theorem slice_self (t : Text) (start : Nat) : t.slice start start = [] := by
  rw [slice, Nat.sub_self, List.take_zero]

theorem slice_succ {start stop : Nat} (h : start ≤ stop) (t : Text) :
    t.slice start (stop + 1) = t.slice start stop ++ t[stop]?.toList := by
  rw [slice, slice, Nat.succ_sub h, List.take_add_one, List.getElem?_drop, Nat.add_sub_cancel' h]

end ComponentAudit.Text
