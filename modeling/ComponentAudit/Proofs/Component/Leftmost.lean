import ComponentAudit.Proofs.Component.Markup
import Mathlib.Order.Bounds.Basic

/-! # Elements are found leftmost first

What a search for elements finds is fixed by four places in the text: the first tag that opens at or
behind the last element, the first `>` behind its name, the first closing tag behind that, and where no
such place is left (`LeftmostFirst`). Longer names that only begin like the tag open nothing. -/

namespace ComponentAudit

/-! ## First places -/

namespace Text

theorem singleton_prefix_drop {c : Char} {t : Text} {p : Nat} : [c] <+: t.drop p ↔ t[p]? = some c := by
  rw [List.singleton_prefix_iff_head?_eq_some, List.head?_drop]

/-- A text is cut at the first place where the needle stands. -/
theorem isLeast_of_cut? {needle t head tail : Text} (h : cut? needle t = some (head, tail)) :
    IsLeast {p | needle <+: t.drop p} head.length := by
  induction t generalizing head tail with
  | nil =>
    rw [cut?] at h
    split at h
    · rename_i hempty
      obtain ⟨rfl, rfl⟩ := Prod.mk.inj (Option.some.inj h)
      obtain rfl := List.isEmpty_iff.mp hempty
      exact ⟨List.nil_prefix, fun _ _ => Nat.zero_le _⟩
    · cases h
  | cons c t ih =>
    rw [cut?] at h
    split at h
    · rename_i hstands
      obtain ⟨rfl, -⟩ := Prod.mk.inj (Option.some.inj h)
      exact ⟨List.isPrefixOf_iff_prefix.mp hstands, fun _ _ => Nat.zero_le _⟩
    · rename_i hnot
      rw [List.isPrefixOf_iff_prefix] at hnot
      obtain ⟨⟨front, rest⟩, hfront, heq⟩ := Option.map_eq_some_iff.mp h
      obtain ⟨rfl, -⟩ := Prod.mk.inj heq
      obtain ⟨hstands, hfirst⟩ := ih hfront
      refine ⟨hstands, fun p hp => ?_⟩
      cases p with
      | zero => exact absurd hp hnot
      | succ p => exact Nat.succ_le_succ (hfirst hp)

theorem isLeast_of_cut?_drop {needle t head tail : Text} {start : Nat}
    (h : cut? needle (t.drop start) = some (head, tail)) :
    IsLeast {p | start ≤ p ∧ needle <+: t.drop p} (start + head.length) := by
  obtain ⟨hstands, hfirst⟩ := isLeast_of_cut? h
  refine ⟨⟨Nat.le_add_right _ _, by simpa using hstands⟩, ?_⟩
  rintro p ⟨hle, hp⟩
  obtain ⟨n, rfl⟩ := Nat.exists_eq_add_of_le hle
  have hn : n ∈ {p | needle <+: (t.drop start).drop p} := by simpa using hp
  exact Nat.add_le_add_left (hfirst hn) start

theorem not_prefix_of_cut?_drop {needle t : Text} {start p : Nat}
    (h : cut? needle (t.drop start) = none) (hle : start ≤ p) : ¬ needle <+: t.drop p := by
  intro hp
  obtain ⟨n, rfl⟩ := Nat.exists_eq_add_of_le hle
  rw [← List.drop_drop] at hp
  exact cut?_eq_none.mp h (hp.isInfix.trans (List.drop_suffix n _).isInfix)

end Text

/-- What does not hold at a place is not first there. -/
theorem isLeast_of_not {P : Nat → Prop} {start first : Nat} (hnot : ¬ P start)
    (h : IsLeast {p | start + 1 ≤ p ∧ P p} first) : IsLeast {p | start ≤ p ∧ P p} first := by
  refine ⟨⟨Nat.le_of_succ_le h.1.1, h.1.2⟩, ?_⟩
  rintro p ⟨hle, hp⟩
  rcases Nat.eq_or_lt_of_le hle with rfl | hlt
  · exact absurd hp hnot
  · exact h.2 ⟨hlt, hp⟩

/-! ## The relation -/

/-- The tag opens at an offset of a text: its name stands there and is not a part of a longer one. -/
structure OpensAt (tag t : Text) (offset : Nat) : Prop where
  name : '<' :: tag <+: t.drop offset
  ended : ∀ c, t[offset + (tag.length + 1)]? = some c → c ∈ [' ', '\t', '\r', '\n', '>', '/']

/-- A search from an offset on that at every step takes the first place there is. -/
inductive LeftmostFirst (tag t : Text) : Nat → ElementSearch → Prop where
  | exhausted {start : Nat} (none : ∀ p, start ≤ p → ¬ OpensAt tag t p) :
    LeftmostFirst tag t start ⟨[], .exhausted⟩
  | unterminated {start opener : Nat} (first : IsLeast {p | start ≤ p ∧ OpensAt tag t p} opener)
    (none : ∀ p, opener + (tag.length + 1) ≤ p → t[p]? ≠ some '>') :
    LeftmostFirst tag t start ⟨[], .unterminatedTag opener⟩
  | unclosed {start opener tagEnd : Nat} (first : IsLeast {p | start ≤ p ∧ OpensAt tag t p} opener)
    (ends : IsLeast {p | opener + (tag.length + 1) ≤ p ∧ t[p]? = some '>'} tagEnd)
    (none : ∀ p, tagEnd < p → ¬ closeTag tag <+: t.drop p) :
    LeftmostFirst tag t start ⟨[], .missingClose tagEnd⟩
  | element {start opener tagEnd close : Nat} {more : ElementSearch}
    (first : IsLeast {p | start ≤ p ∧ OpensAt tag t p} opener)
    (ends : IsLeast {p | opener + (tag.length + 1) ≤ p ∧ t[p]? = some '>'} tagEnd)
    (closes : IsLeast {p | tagEnd < p ∧ closeTag tag <+: t.drop p} close)
    (later : LeftmostFirst tag t (close + (closeTag tag).length) more) :
    LeftmostFirst tag t start
      ⟨⟨opener, tagEnd + 1, close, close + (closeTag tag).length⟩ :: more.spans, more.stop⟩

section Search

variable {tag t : Text}

theorem opensTag_drop_iff {offset : Nat} :
    opensTag tag (t.drop offset) = true ↔ OpensAt tag t offset := by
  have hend : ∀ c, isTagNameEnd c = true ↔ c ∈ [' ', '\t', '\r', '\n', '>', '/'] := by
    intro c
    simp [isTagNameEnd, or_assoc]
  have hnext : (!((t.drop offset).drop (tag.length + 1)).head?.any (!isTagNameEnd ·)) = true ↔
      ∀ c, t[offset + (tag.length + 1)]? = some c → c ∈ [' ', '\t', '\r', '\n', '>', '/'] := by
    rw [List.drop_drop, List.head?_drop]
    cases t[offset + (tag.length + 1)]? with
    | none => simp
    | some c => simp [← hend]
  rw [opensTag, Bool.and_eq_true, List.isPrefixOf_iff_prefix, hnext]
  exact ⟨fun h => ⟨h.1, h.2⟩, fun h => ⟨h.name, h.ended⟩⟩

theorem OpensAt.lt {offset : Nat} (h : OpensAt tag t offset) : offset < t.length := by
  have hlength := h.name.length_le
  rw [List.length_cons, List.length_drop] at hlength
  omega

theorem length_closeTag (tag : Text) : (closeTag tag).length = tag.length + 3 := by
  simp [closeTag]

/-- A search may start one place later where no tag opens. -/
theorem LeftmostFirst.of_succ {start : Nat} {search : ElementSearch} (hnot : ¬ OpensAt tag t start)
    (h : LeftmostFirst tag t (start + 1) search) : LeftmostFirst tag t start search := by
  cases h with
  | exhausted none =>
    refine .exhausted fun p hle => ?_
    rcases Nat.eq_or_lt_of_le hle with rfl | hlt
    · exact hnot
    · exact none p hlt
  | unterminated first none => exact .unterminated (isLeast_of_not hnot first) none
  | unclosed first ends none => exact .unclosed (isLeast_of_not hnot first) ends none
  | element first ends closes later => exact .element (isLeast_of_not hnot first) ends closes later

/-- Where a tag opens, the search takes the element there or ends. -/
theorem LeftmostFirst.of_opensAt {offset : Nat} (hopens : OpensAt tag t offset)
    (later : Nat → ElementSearch)
    (hlater : ∀ stop, offset < stop → LeftmostFirst tag t stop (later stop)) :
    LeftmostFirst tag t offset <|
      match elementAt tag offset (t.drop offset) with
      | .error stop => ⟨[], stop⟩
      | .ok span => ⟨span :: (later span.elementEnd).spans, (later span.elementEnd).stop⟩ := by
  have hfirst : IsLeast {p | offset ≤ p ∧ OpensAt tag t p} offset :=
    ⟨⟨Nat.le_refl _, hopens⟩, fun _ hp => hp.1⟩
  unfold elementAt
  rw [List.drop_drop]
  cases hopened : Text.cut? ">" (t.drop (offset + (tag.length + 1))) with
  | none =>
    refine .unterminated hfirst fun p hle hp => ?_
    exact Text.not_prefix_of_cut?_drop hopened hle (Text.singleton_prefix_drop.mpr hp)
  | some found =>
    obtain ⟨inTag, rest⟩ := found
    have htagEnd : offset + (tag.length + 1) + inTag.length = offset + 1 + tag.length + inTag.length := by
      omega
    have hends : IsLeast {p | offset + (tag.length + 1) ≤ p ∧ t[p]? = some '>'}
        (offset + 1 + tag.length + inTag.length) := by
      have hsame : ∀ p, t[p]? = some '>' ↔ (">" : Text) <+: t.drop p :=
        fun p => Text.singleton_prefix_drop.symm
      simpa only [hsame, htagEnd] using Text.isLeast_of_cut?_drop hopened
    have hrest : rest = t.drop (offset + 1 + tag.length + inTag.length + 1) := by
      have hsplit := congrArg (List.drop (inTag.length + 1)) (Text.eq_append_of_cut? hopened)
      rw [List.drop_drop, List.drop_left' (by simp)] at hsplit
      rw [← hsplit]
      congr 1
      omega
    simp only
    rw [hrest]
    cases hclosed : Text.cut? ("</" ++ tag ++ ">")
        (t.drop (offset + 1 + tag.length + inTag.length + 1)) with
    | none =>
      exact .unclosed hfirst hends fun p hlt => Text.not_prefix_of_cut?_drop hclosed hlt
    | some found =>
      obtain ⟨body, behind⟩ := found
      have hcloses := Text.isLeast_of_cut?_drop hclosed
      have hend : offset + 1 + tag.length + inTag.length + 1 + body.length + tag.length + 3 =
          offset + 1 + tag.length + inTag.length + 1 + body.length + (closeTag tag).length := by
        rw [length_closeTag]
        omega
      simp only
      rw [hend]
      exact .element hfirst hends hcloses (hlater _ (by omega))

theorem leftmostFirst_elementsFrom {rest : Text} (covered offset : Nat) (h : t.drop offset = rest) :
    LeftmostFirst tag t (offset + covered) (elementsFrom tag covered offset rest) := by
  induction rest generalizing covered offset with
  | nil =>
    refine .exhausted fun p hle hopens => ?_
    have hend := List.drop_eq_nil_iff.mp h
    have hlt := hopens.lt
    omega
  | cons c rest ih =>
    have hnext : t.drop (offset + 1) = rest := by
      rw [← List.drop_drop, h]
      rfl
    cases covered with
    | succ covered =>
      have hsum : offset + (covered + 1) = offset + 1 + covered := by omega
      rw [elementsFrom, hsum]
      exact ih covered (offset + 1) hnext
    | zero =>
      rw [elementsFrom, Nat.add_zero, ← h]
      split
      · rename_i hopens
        refine .of_opensAt (opensTag_drop_iff.mp hopens)
          (fun stop => elementsFrom tag (stop - offset - 1) (offset + 1) rest) fun stop hlt => ?_
        have hlater := ih (stop - offset - 1) (offset + 1) hnext
        have hreach : offset + 1 + (stop - offset - 1) = stop := by omega
        rwa [hreach] at hlater
      · rename_i hopens
        exact (ih 0 (offset + 1) hnext).of_succ fun hat => hopens (opensTag_drop_iff.mpr hat)

/-- No closing tag reaches into what stands in front of the first one. -/
theorem closeTag_not_infix_slice {start close : Nat}
    (h : IsLeast {p | start ≤ p ∧ closeTag tag <+: t.drop p} close) :
    ¬ closeTag tag <:+: t.slice start close := by
  rintro ⟨front, back, hsplit⟩
  have hslice : t.slice start close <+: t.drop start := List.take_prefix _ _
  have hstands : closeTag tag <+: t.drop (start + front.length) := by
    obtain ⟨rest, hrest⟩ := hslice
    rw [← List.drop_drop, ← hrest, ← hsplit, List.append_assoc, List.append_assoc, List.drop_left]
    exact List.prefix_append _ _
  have hfirst := h.2 ⟨Nat.le_add_right _ _, hstands⟩
  have hlength := congrArg List.length hsplit
  have htag := length_closeTag tag
  rw [Text.slice, List.length_take, List.length_append, List.length_append] at hlength
  omega

theorem LeftmostFirst.body_open {start : Nat} {search : ElementSearch}
    (h : LeftmostFirst tag t start search) :
    ∀ span ∈ search.spans, ¬ closeTag tag <:+: span.body t := by
  induction h with
  | exhausted | unterminated | unclosed => exact fun _ hspan => (List.not_mem_nil hspan).elim
  | element first ends closes later ih =>
    intro span hspan
    rcases List.mem_cons.mp hspan with rfl | hspan
    · exact closeTag_not_infix_slice closes
    · exact ih span hspan

end Search

/-- The elements of one kind are those that a search for the first places finds, from the start of the
text on. They lie one behind the other, and no body holds a closing tag. -/
theorem elements_leftmostFirst (tag t : Text) :
    LeftmostFirst tag t 0 (elements tag t) ∧
      (elements tag t).spans.Pairwise (fun a b => a.elementEnd ≤ b.elementStart) ∧
      ∀ span ∈ (elements tag t).spans, span.Ordered ∧ span.elementEnd ≤ t.length ∧
        ¬ closeTag tag <:+: span.body t := by
  have hsearch : LeftmostFirst tag t 0 (elements tag t) := leftmostFirst_elementsFrom 0 0 rfl
  obtain ⟨hordered, hpairs⟩ := elementsFrom_ordered tag 0 0 t
  refine ⟨hsearch, hpairs, fun span hspan => ⟨(hordered span hspan).1, ?_, ?_⟩⟩
  · have hwithin := elementsFrom_within hspan
    rwa [Nat.zero_add] at hwithin
  · exact hsearch.body_open span hspan

example : (elements "style" "<styles></styles><style></style>").spans.map (·.elementStart) = [17] := by
  decide

end ComponentAudit
