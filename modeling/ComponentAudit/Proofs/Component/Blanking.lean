import ComponentAudit.Proofs.Component.Overlap
import ComponentAudit.Proofs.Text.Cut

/-! # Style elements of a file without its scripts

Two searches side by side: one through a file, and one through the same file with every character of
its scripts made a blank. A blank opens and closes no tag, so inside a script only the first search
can find anything. As long as no element reaches over the edge of a script, the second search finds
exactly the elements that lie outside the scripts (`spans_elements_blankFrom`). An element that does
reach over the edge makes the searches differ for good. -/

namespace ComponentAudit

/-! ## Blanking -/

/-- The text from an offset on, blank at the offsets that are hidden. -/
def blankFrom (hidden : Nat → Bool) (offset : Nat) : Text → Text
  | [] => []
  | c :: rest => (if hidden offset then ' ' else c) :: blankFrom hidden (offset + 1) rest

variable {hidden : Nat → Bool}

theorem blankFrom_append (offset : Nat) (front rest : Text) :
    blankFrom hidden offset (front ++ rest) =
      blankFrom hidden offset front ++ blankFrom hidden (offset + front.length) rest := by
  induction front generalizing offset with
  | nil => rfl
  | cons c front ih =>
    have hsum : offset + (front.length + 1) = offset + 1 + front.length := by omega
    simp only [List.cons_append, blankFrom, ih, List.length_cons, hsum]

theorem blankFrom_of_visible {offset : Nat} {t : Text}
    (h : ∀ p, offset ≤ p → p < offset + t.length → hidden p = false) :
    blankFrom hidden offset t = t := by
  induction t generalizing offset with
  | nil => rfl
  | cons c t ih =>
    rw [List.length_cons] at h
    have hrest : blankFrom hidden (offset + 1) t = t :=
      ih fun p hp hlt => h p (by omega) (by omega)
    simp [blankFrom, hrest, h offset (Nat.le_refl _) (by omega)]

/-- What stands in a blanked text without blanks of its own stood there before, all of it visible. -/
theorem prefix_of_blankFrom {offset : Nat} {word t : Text} (hword : ' ' ∉ word)
    (h : word <+: blankFrom hidden offset t) :
    word <+: t ∧ ∀ p, offset ≤ p → p < offset + word.length → hidden p = false := by
  induction word generalizing offset t with
  | nil => exact ⟨List.nil_prefix, fun p hp hlt => absurd hlt (by simpa using hp)⟩
  | cons w word ih =>
    cases t with
    | nil => exact absurd h (by simp [blankFrom])
    | cons c t =>
      rw [List.mem_cons, not_or] at hword
      obtain ⟨hw, hrest⟩ := List.cons_prefix_cons.mp h
      have hvisible : hidden offset = false := by
        by_cases hh : hidden offset = true
        · rw [if_pos hh] at hw
          exact absurd hw.symm hword.1
        · simpa using hh
      obtain ⟨hhead, hall⟩ := ih hword.2 hrest
      refine ⟨?_, fun p hp hlt => ?_⟩
      · rw [hw, hvisible]
        exact List.cons_prefix_cons.mpr ⟨rfl, hhead⟩
      · rcases Nat.eq_or_lt_of_le hp with rfl | hp
        · exact hvisible
        · exact hall p hp (by rw [List.length_cons] at hlt; omega)

theorem infix_of_blankFrom {offset : Nat} {word t : Text} (hword : ' ' ∉ word)
    (h : word <:+: blankFrom hidden offset t) : word <:+: t := by
  induction t generalizing offset with
  | nil => exact h
  | cons c t ih =>
    rw [List.infix_cons_iff]
    rcases List.infix_cons_iff.mp h with h | h
    · exact .inl (prefix_of_blankFrom (t := c :: t) hword h).1
    · exact .inr (ih h)

/-! ## Elements that can end -/

/-- The closing tag of an element. -/
def closeTag (tag : Text) : Text := "</" ++ tag ++ ">"

/-- A text holds the end of an opening tag and a closing tag behind it. -/
def Closable (tag t : Text) : Prop := ∃ inTag rest, t = inTag ++ '>' :: rest ∧ closeTag tag <:+: rest

theorem Closable.cons {tag t : Text} (h : Closable tag t) (c : Char) : Closable tag (c :: t) := by
  obtain ⟨inTag, rest, rfl, hclose⟩ := h
  exact ⟨c :: inTag, rest, rfl, hclose⟩

/-- Blanking opens no way to end an element. -/
theorem Closable.of_blankFrom {tag t : Text} {offset : Nat} (htag : ' ' ∉ tag)
    (h : Closable tag (blankFrom hidden offset t)) : Closable tag t := by
  have hclose : ' ' ∉ closeTag tag := by simp [closeTag, htag]
  induction t generalizing offset with
  | nil =>
    obtain ⟨inTag, rest, hsplit, -⟩ := h
    exact absurd hsplit (by simp [blankFrom])
  | cons c t ih =>
    obtain ⟨inTag, rest, hsplit, hrest⟩ := h
    cases inTag with
    | nil =>
      obtain ⟨hc, rfl⟩ := List.cons.inj hsplit
      have hsame : c = '>' := by
        split at hc
        · exact absurd hc (by decide)
        · exact hc
      exact ⟨[], t, by rw [hsame]; rfl, infix_of_blankFrom hclose hrest⟩
    | cons d inTag => exact (ih ⟨inTag, rest, (List.cons.inj hsplit).2, hrest⟩).cons c

theorem prefix_of_opensTag {tag t : Text} (h : opensTag tag t = true) : '<' :: tag <+: t := by
  rw [opensTag, Bool.and_eq_true, List.isPrefixOf_iff_prefix] at h
  exact h.1

/-- An opening tag that starts no element could not have ended. -/
theorem not_closable_of_error {tag t : Text} {offset : Nat} {stop : SearchEnd} (htag : '>' ∉ tag)
    (hopens : opensTag tag t = true) (h : elementAt tag offset t = .error stop) :
    ¬ Closable tag t := by
  obtain ⟨rest, rfl⟩ := prefix_of_opensTag hopens
  have hdrop : ('<' :: tag ++ rest).drop (tag.length + 1) = rest := List.drop_left
  rintro ⟨inTag, behind, hsplit, hclose⟩
  unfold elementAt at h
  rw [hdrop] at h
  split at h
  · rename_i hcut
    have hmem : '>' ∈ '<' :: tag ++ rest := by rw [hsplit]; simp
    have hrest : '>' ∈ rest := by simpa [htag] using hmem
    obtain ⟨front, back, rfl⟩ := List.append_of_mem hrest
    exact Text.cut?_eq_none.mp hcut ⟨front, back, by simp⟩
  · rename_i opened after hcut
    simp only at h
    split at h
    · rename_i hnone
      have hrest := Text.eq_append_of_cut? hcut
      have hfirst : '>' ∉ '<' :: tag ++ opened := by
        have hopened : '>' ∉ opened := Text.not_mem_of_cut? hcut
        simp [htag, hopened]
      have hsuffix : behind <:+ after := by
        refine Text.suffix_of_first hfirst (Eq.trans ?_ hsplit)
        rw [hrest]
        simp
      exact Text.cut?_eq_none.mp hnone (hclose.trans hsuffix.isInfix)
    · cases h

/-- An element is told by its own text: whatever stands behind it has no part in it. -/
theorem elementAt_eq_ok {tag t : Text} {offset : Nat} {span : ElementSpan}
    (hopens : opensTag tag t = true) (h : elementAt tag offset t = .ok span) :
    Closable tag t ∧ ∃ text rest, t = text ++ rest ∧ offset + text.length = span.elementEnd ∧
      ∀ other, opensTag tag (text ++ other) = true ∧
        elementAt tag offset (text ++ other) = .ok span := by
  obtain ⟨behind, rfl⟩ := prefix_of_opensTag hopens
  have hdrop : ∀ other, ('<' :: tag ++ other).drop (tag.length + 1) = other :=
    fun _ => List.drop_left
  unfold elementAt at h
  rw [hdrop] at h
  split at h
  · cases h
  · rename_i inTag after hopened
    simp only at h
    split at h
    · cases h
    · rename_i body rest hclosed
      obtain rfl := Except.ok.inj h
      have hbehind := Text.eq_append_of_cut? hopened
      have hafter := Text.eq_append_of_cut? hclosed
      rw [hbehind] at hopened
      rw [hafter] at hclosed
      refine ⟨⟨'<' :: tag ++ inTag, after, by rw [hbehind]; simp, ?_⟩,
        '<' :: tag ++ (inTag ++ (">" : Text) ++ (body ++ closeTag tag)), rest, ?_, ?_, ?_⟩
      · exact ⟨body, rest, hafter.symm⟩
      · rw [hbehind, hafter, closeTag]
        simp
      · simp [closeTag]
        omega
      · intro other
        refine ⟨?_, ?_⟩
        · rw [opensTag, hdrop, hbehind] at hopens
          rw [opensTag, List.append_assoc, hdrop]
          cases inTag <;> simpa using hopens
        · have hopened' := Text.cut?_append (by simp) hopened (body ++ closeTag tag ++ other)
          have hclosed' := Text.cut?_append (by simp) hclosed other
          rw [elementAt, List.append_assoc, hdrop, List.append_assoc (inTag ++ _), hopened']
          simp only [closeTag, hclosed']

/-! ## Two searches side by side -/

namespace ElementSpan

def Hidden (hidden : Nat → Bool) (span : ElementSpan) : Prop :=
  ∀ p, span.elementStart ≤ p → p < span.elementEnd → hidden p = true

def Visible (hidden : Nat → Bool) (span : ElementSpan) : Prop :=
  ∀ p, span.elementStart ≤ p → p < span.elementEnd → hidden p = false

end ElementSpan

/-- Nothing can be found where no element can end. -/
theorem spans_elementsFrom_of_not_closable {tag t : Text} {covered offset : Nat}
    (h : ¬ Closable tag t) : (elementsFrom tag covered offset t).spans = [] := by
  induction t generalizing covered offset with
  | nil => rfl
  | cons c t ih =>
    have hrest : ¬ Closable tag t := fun hclosable => h (hclosable.cons c)
    cases covered with
    | succ covered => exact ih hrest
    | zero =>
      rw [elementsFrom]
      split
      · rename_i hopens
        split
        · rfl
        · rename_i span hok
          exact absurd (elementAt_eq_ok hopens hok).1 h
      · exact ih hrest

section SideBySide

variable {tag whole : Text}

/-- A name of a tag does not end right where a hidden part starts. -/
def Detached (hidden : Nat → Bool) (tag whole : Text) : Prop :=
  ∀ p, '<' :: tag <+: whole.drop p →
    (∀ o, p ≤ o → o < p + (tag.length + 1) → hidden o = false) → hidden (p + (tag.length + 1)) = false

theorem opensTag_of_blankFrom {offset : Nat} (htag : ' ' ∉ tag)
    (hdetached : Detached hidden tag whole)
    (h : opensTag tag (blankFrom hidden offset (whole.drop offset)) = true) :
    opensTag tag (whole.drop offset) = true := by
  rw [opensTag, Bool.and_eq_true, List.isPrefixOf_iff_prefix] at h ⊢
  obtain ⟨hopen, hnext⟩ := h
  obtain ⟨hhead, hvisible⟩ := prefix_of_blankFrom (by simp [htag]) hopen
  refine ⟨hhead, ?_⟩
  have hgoes := hdetached offset hhead hvisible
  obtain ⟨rest, hrest⟩ := hhead
  rw [← hrest, blankFrom_append, blankFrom_of_visible hvisible] at hnext
  rw [← hrest]
  have hdrop : ∀ other, ('<' :: tag ++ other).drop (tag.length + 1) = other :=
    fun _ => List.drop_left
  rw [hdrop] at hnext ⊢
  cases rest with
  | nil => rfl
  | cons d rest => simpa [blankFrom, hgoes] using hnext

theorem elementsFrom_skip {c : Char} {t : Text} {offset : Nat} (h : opensTag tag (c :: t) = false) :
    elementsFrom tag 0 offset (c :: t) = elementsFrom tag 0 (offset + 1) t := by
  rw [elementsFrom, h]
  rfl

theorem spans_elementsFrom_error {c : Char} {t : Text} {offset : Nat} {stop : SearchEnd}
    (hopens : opensTag tag (c :: t) = true) (h : elementAt tag offset (c :: t) = .error stop) :
    (elementsFrom tag 0 offset (c :: t)).spans = [] := by
  rw [elementsFrom, if_pos hopens, h]

theorem spans_elementsFrom_ok {c : Char} {t : Text} {offset : Nat} {span : ElementSpan}
    (hopens : opensTag tag (c :: t) = true) (h : elementAt tag offset (c :: t) = .ok span) :
    (elementsFrom tag 0 offset (c :: t)).spans =
      span :: (elementsFrom tag (span.elementEnd - offset - 1) (offset + 1) t).spans := by
  rw [elementsFrom, if_pos hopens, h]

/-- The search through the blanked text finds what lies outside the hidden parts, from an offset on.
While the first search passes over a hidden element, the second one walks through blanks. -/
def Agrees (hidden : Nat → Bool) (tag : Text) (offset : Nat) (t : Text) : Prop :=
  ∀ covered covered', (covered' = covered ∨
      covered' = 0 ∧ ∀ p, offset ≤ p → p < offset + covered → hidden p = true) →
    (∀ span ∈ (elementsFrom tag covered offset t).spans,
      span.Hidden hidden ∨ span.Visible hidden) →
    (elementsFrom tag covered' offset (blankFrom hidden offset t)).spans =
      (elementsFrom tag covered offset t).spans.filter fun span => !hidden span.elementStart

variable {c : Char} {t : Text} {offset : Nat}

theorem Agrees.cons_of_hidden (hspace : ' ' ∉ tag) (hclose : '>' ∉ tag)
    (hhere : hidden offset = true) (ih : Agrees hidden tag (offset + 1) t) :
    Agrees hidden tag offset (c :: t) := by
  intro covered covered' hcovered hspans
  have hblank : opensTag tag (' ' :: blankFrom hidden (offset + 1) t) = false := by
    simp [opensTag, List.isPrefixOf]
  cases covered with
  | succ covered =>
    rcases hcovered with rfl | ⟨rfl, hhidden⟩
    · exact ih _ _ (.inl rfl) hspans
    · rw [blankFrom, if_pos hhere, elementsFrom_skip hblank]
      exact ih _ _ (.inr ⟨rfl, fun p hp hlt => hhidden p (by omega) (by omega)⟩) hspans
  | zero =>
    obtain rfl : covered' = 0 := by
      rcases hcovered with h | h
      · exact h
      · exact h.1
    rw [blankFrom, if_pos hhere, elementsFrom_skip hblank]
    by_cases hopens : opensTag tag (c :: t) = true
    · cases hat : elementAt tag offset (c :: t) with
      | error stop =>
        have hstuck := not_closable_of_error hclose hopens hat
        rw [spans_elementsFrom_error hopens hat]
        exact spans_elementsFrom_of_not_closable fun h => hstuck ((h.of_blankFrom hspace).cons c)
      | ok span =>
        have hstart := (elementAt_ordered hat).2
        have hlong := elementAt_not_empty hat
        rw [spans_elementsFrom_ok hopens hat] at hspans ⊢
        have hhidden : span.Hidden hidden := by
          refine (hspans span List.mem_cons_self).resolve_right fun hvisible => ?_
          rw [hvisible offset (by omega) (by omega)] at hhere
          cases hhere
        rw [List.filter_cons_of_neg (by simp [hstart, hhere])]
        refine ih _ _ (.inr ⟨rfl, fun p hp hlt => hhidden p (by omega) (by omega)⟩) ?_
        exact fun other hother => hspans other (List.mem_cons_of_mem span hother)
    · rw [Bool.not_eq_true] at hopens
      rw [elementsFrom_skip hopens] at hspans ⊢
      exact ih _ _ (.inl rfl) hspans

theorem Agrees.cons_of_visible (hspace : ' ' ∉ tag) (hclose : '>' ∉ tag)
    (hdetached : Detached hidden tag whole) (ht : whole.drop offset = c :: t)
    (hhere : hidden offset = false) (ih : Agrees hidden tag (offset + 1) t) :
    Agrees hidden tag offset (c :: t) := by
  intro covered covered' hcovered hspans
  obtain rfl : covered' = covered := by
    rcases hcovered with h | ⟨rfl, hhidden⟩
    · exact h
    · cases covered with
      | zero => rfl
      | succ covered =>
        rw [hhidden offset (Nat.le_refl _) (by omega)] at hhere
        cases hhere
  cases covered' with
  | succ covered => exact ih _ _ (.inl rfl) hspans
  | zero =>
    by_cases hopens : opensTag tag (c :: t) = true
    · cases hat : elementAt tag offset (c :: t) with
      | error stop =>
        have hstuck := not_closable_of_error hclose hopens hat
        rw [spans_elementsFrom_error hopens hat]
        exact spans_elementsFrom_of_not_closable fun h => hstuck (h.of_blankFrom hspace)
      | ok span =>
        have hstart := (elementAt_ordered hat).2
        have hlong := elementAt_not_empty hat
        rw [spans_elementsFrom_ok hopens hat] at hspans ⊢
        have hvisible : span.Visible hidden := by
          refine (hspans span List.mem_cons_self).resolve_left fun hhidden => ?_
          rw [hhidden offset (by omega) (by omega)] at hhere
          cases hhere
        obtain ⟨-, text, rest, hsplit, hend, hown⟩ := elementAt_eq_ok hopens hat
        have hsame : blankFrom hidden offset (c :: t) =
            text ++ blankFrom hidden (offset + text.length) rest := by
          rw [hsplit, blankFrom_append, blankFrom_of_visible]
          exact fun p hp hlt => hvisible p (by omega) (by omega)
        obtain ⟨hopens', hat'⟩ := hown (blankFrom hidden (offset + text.length) rest)
        rw [← hsame, blankFrom] at hopens' hat'
        rw [blankFrom, spans_elementsFrom_ok hopens' hat',
          List.filter_cons_of_pos (by simp [hstart, hhere])]
        refine congrArg (span :: ·) (ih _ _ (.inl rfl) ?_)
        exact fun other hother => hspans other (List.mem_cons_of_mem span hother)
    · have hopens' : opensTag tag (blankFrom hidden offset (c :: t)) = false := by
        rw [← Bool.not_eq_true]
        rw [← ht] at hopens ⊢
        exact fun h => hopens (opensTag_of_blankFrom hspace hdetached h)
      rw [Bool.not_eq_true] at hopens
      rw [blankFrom] at hopens' ⊢
      rw [elementsFrom_skip hopens] at hspans ⊢
      rw [elementsFrom_skip hopens']
      exact ih _ _ (.inl rfl) hspans

theorem agrees (hspace : ' ' ∉ tag) (hclose : '>' ∉ tag) (hdetached : Detached hidden tag whole)
    (ht : whole.drop offset = t) : Agrees hidden tag offset t := by
  induction t generalizing offset with
  | nil => exact fun _ _ _ _ => rfl
  | cons c t ih =>
    have hnext : whole.drop (offset + 1) = t := by
      rw [← List.drop_drop, ht, List.drop_one, List.tail_cons]
    cases hhere : hidden offset with
    | true => exact (ih hnext).cons_of_hidden hspace hclose hhere
    | false => exact (ih hnext).cons_of_visible hspace hclose hdetached ht hhere

/-- The elements of the blanked text are those that start outside the hidden parts. -/
theorem spans_elements_blankFrom (hspace : ' ' ∉ tag) (hclose : '>' ∉ tag)
    (hdetached : Detached hidden tag whole)
    (hspans : ∀ span ∈ (elements tag whole).spans, span.Hidden hidden ∨ span.Visible hidden) :
    (elements tag (blankFrom hidden 0 whole)).spans =
      (elements tag whole).spans.filter fun span => !hidden span.elementStart :=
  agrees hspace hclose hdetached List.drop_zero 0 0 (.inl rfl) hspans

end SideBySide

/-! ## Scripts made blank -/

namespace ElementSpan

def covers (span : ElementSpan) (offset : Nat) : Bool :=
  span.elementStart ≤ offset && offset < span.elementEnd

/-- An element lies inside another one. -/
def Within (inner outer : ElementSpan) : Prop :=
  outer.elementStart ≤ inner.elementStart ∧ inner.elementEnd ≤ outer.elementEnd

instance (inner outer : ElementSpan) : Decidable (inner.Within outer) :=
  inferInstanceAs (Decidable (_ ∧ _))

end ElementSpan

/-- A text with every character of some elements made a blank. -/
def blankOut (spans : List ElementSpan) (t : Text) : Text :=
  blankFrom (fun p => spans.any (·.covers p)) 0 t

/-- A file with every character of its scripts made a blank. -/
def blankScripts (t : Text) : Text := blankOut ((Regions.ofText t).scripts.map (·.span)) t

/-- No style element that is found in a file reaches over the edge of a script, and no name of a tag
ends right in front of a script. -/
structure ScriptsSealed (t : Text) : Prop where
  styles : ∀ style ∈ (elements "style" t).spans,
    (∃ script ∈ (elements "script" t).spans, style.Within script) ∨
      ∀ script ∈ (elements "script" t).spans, style.Apart script
  names : ∀ script ∈ (elements "script" t).spans, ∀ tag ∈ [("script" : Text), "style"],
    ¬ '<' :: tag <:+ t.take script.elementStart

theorem drop_blankFrom (n offset : Nat) (t : Text) :
    (blankFrom hidden offset t).drop n = blankFrom hidden (offset + n) (t.drop n) := by
  induction t generalizing n offset with
  | nil => simp [blankFrom]
  | cons c t ih =>
    cases n with
    | zero => rfl
    | succ n =>
      simp only [blankFrom, List.drop_succ_cons, ih]
      congr 1
      omega

theorem take_blankFrom (n offset : Nat) (t : Text) :
    (blankFrom hidden offset t).take n = blankFrom hidden offset (t.take n) := by
  induction t generalizing n offset with
  | nil => simp [blankFrom]
  | cons c t ih =>
    cases n with
    | zero => rfl
    | succ n => simp only [blankFrom, List.take_succ_cons, ih]

theorem slice_blankFrom {t : Text} {start stop : Nat}
    (h : ∀ p, start ≤ p → p < stop → hidden p = false) :
    (blankFrom hidden 0 t).slice start stop = t.slice start stop := by
  rw [Text.slice, Text.slice, drop_blankFrom, take_blankFrom, blankFrom_of_visible]
  intro p hp hlt
  rw [List.length_take] at hlt
  exact h p (by omega) (by omega)

theorem detached_of_sealed {t tag : Text} (h : ScriptsSealed t)
    (htag : tag ∈ [("script" : Text), "style"]) :
    Detached (fun p => (elements "script" t).spans.any (·.covers p)) tag t := by
  intro p hopen hvisible
  rw [List.any_eq_false]
  intro script hscript hcovers
  have hlong := elementsFrom_not_empty hscript
  have hclear : ∀ o, p ≤ o → o < p + (tag.length + 1) →
      ¬ (script.elementStart ≤ o ∧ o < script.elementEnd) := by
    intro o hle hlt hin
    have hnot := List.any_eq_false.mp (hvisible o hle hlt) script hscript
    exact hnot (by simpa [ElementSpan.covers] using hin)
  simp only [ElementSpan.covers, Bool.and_eq_true, decide_eq_true_eq] at hcovers
  -- the script can only start right behind the name of the tag
  have hstart : script.elementStart = p + (tag.length + 1) := by
    by_cases hbefore : script.elementStart < p
    · exact absurd ⟨Nat.le_of_lt hbefore, by omega⟩ (hclear p (Nat.le_refl _) (by omega))
    · by_cases hwithin : script.elementStart < p + (tag.length + 1)
      · exact absurd ⟨Nat.le_refl _, hlong⟩ (hclear _ (by omega) hwithin)
      · omega
  obtain ⟨rest, hrest⟩ := hopen
  refine h.names script hscript tag htag ⟨t.take p, ?_⟩
  have hlen : (tag.length + 1) = ('<' :: tag).length := rfl
  rw [hstart, List.take_add, ← hrest, hlen, List.take_left]

theorem hidden_or_visible {style : ElementSpan} {scripts : List ElementSpan}
    (h : (∃ script ∈ scripts, style.Within script) ∨ ∀ script ∈ scripts, style.Apart script) :
    style.Hidden (fun p => scripts.any (·.covers p)) ∨
      style.Visible (fun p => scripts.any (·.covers p)) := by
  rcases h with ⟨script, hscript, hwithin⟩ | hapart
  · refine .inl fun p hp hlt => List.any_eq_true.mpr ⟨script, hscript, ?_⟩
    have hstart := hwithin.1
    have hend := hwithin.2
    simp only [ElementSpan.covers, Bool.and_eq_true, decide_eq_true_eq]
    omega
  · refine .inr fun p hp hlt => List.any_eq_false.mpr fun script hscript => ?_
    have hclear := hapart script hscript
    simp only [ElementSpan.Apart, ElementSpan.covers, Bool.and_eq_true, decide_eq_true_eq] at hclear ⊢
    omega

section Sealed

variable {t : Text}

theorem blankScripts_eq (t : Text) :
    blankScripts t = blankFrom (fun p => (elements "script" t).spans.any (·.covers p)) 0 t := by
  rw [blankScripts, blankOut, Regions.scripts_span]

theorem hidden_script {script : ElementSpan} (h : script ∈ (elements "script" t).spans) :
    script.Hidden fun p => (elements "script" t).spans.any (·.covers p) := by
  intro p hp hlt
  refine List.any_eq_true.mpr ⟨script, h, ?_⟩
  simp [ElementSpan.covers, hp, hlt]

theorem elements_script_blankScripts (h : ScriptsSealed t) :
    (elements "script" (blankScripts t)).spans = [] := by
  rw [blankScripts_eq, spans_elements_blankFrom (by decide) (by decide)
    (detached_of_sealed h (by simp)) fun script hin => .inl (hidden_script hin),
    List.filter_eq_nil_iff]
  intro script hin
  have hstart := hidden_script hin _ (Nat.le_refl _) (elementsFrom_not_empty hin)
  simp only [hstart, Bool.not_true, Bool.false_eq_true, not_false_eq_true]

theorem elements_style_blankScripts (h : ScriptsSealed t) :
    (elements "style" (blankScripts t)).spans =
      (elements "style" t).spans.filter fun style =>
        !(elements "script" t).spans.any (style.startsInside ·) := by
  rw [blankScripts_eq, spans_elements_blankFrom (by decide) (by decide)
    (detached_of_sealed h (by simp)) fun style hin => hidden_or_visible (h.styles style hin)]
  rfl

/-- A style element that was kept has the same tag in the blanked text. -/
theorem tag_blankScripts {style : ElementSpan} (h : ScriptsSealed t)
    (hfound : style ∈ (elements "style" t).spans)
    (hkept : (elements "script" t).spans.any (style.startsInside ·) = false) :
    style.tag (blankScripts t) = style.tag t := by
  have hvisible : style.Visible fun p => (elements "script" t).spans.any (·.covers p) := by
    refine (hidden_or_visible (h.styles style hfound)).resolve_left fun hhidden => ?_
    have hstart := hhidden _ (Nat.le_refl _) (elementsFrom_not_empty hfound)
    exact absurd hstart (by simpa [ElementSpan.covers, ElementSpan.startsInside] using hkept)
  have hordered := ((elementsFrom_ordered "style" 0 0 t).1 style hfound).1
  have hbody := hordered.body
  have hend := hordered.close
  rw [blankScripts_eq]
  exact slice_blankFrom fun p hp hlt => hvisible p hp (by omega)

end Sealed

/-- Where no element reaches over the edge of a script, the style elements of a file do not depend on
what is in its scripts. -/
theorem styles_blankScripts {t : Text} (h : ScriptsSealed t) :
    (Regions.ofText (blankScripts t)).styles = (Regions.ofText t).styles := by
  have hkeep : ∀ spans : List ElementSpan,
      (spans.filter fun style => !([] : List ElementSpan).any (style.startsInside ·)) = spans :=
    fun spans => List.filter_eq_self.mpr fun _ _ => rfl
  simp only [Regions.ofText, elements_script_blankScripts h, elements_style_blankScripts h, hkeep]
  refine List.map_congr_left fun entry hin => ?_
  obtain ⟨hfound, hkept⟩ := List.mem_filter.mp (List.fst_mem_of_mem_zipIdx hin)
  have htag := tag_blankScripts h hfound (by simpa using hkept)
  simp only [StyleRegion.ofSpan, htag]

/-- A script that quotes a whole style element, and a style element behind it. -/
def quotedStyle : Text := "<script>let a = '<style></style>'</script><style>p\x7b\x7d</style>"

theorem styles_blankScripts_quotedStyle :
    ScriptsSealed quotedStyle ∧ (Regions.ofText quotedStyle).styles.length = 1 ∧
      (Regions.ofText (blankScripts quotedStyle)).styles = (Regions.ofText quotedStyle).styles := by
  have hsealed : ScriptsSealed quotedStyle := ⟨by decide +kernel, by decide +kernel⟩
  exact ⟨hsealed, by decide +kernel, styles_blankScripts hsealed⟩

/-- An opening tag quoted in a script swallows the style element behind it. -/
theorem styles_blankScripts_hidden :
    (Regions.ofText (blankScripts "<script>'<style>'</script><style></style>")).styles ≠
      (Regions.ofText "<script>'<style>'</script><style></style>").styles := by
  intro h
  have hlength := congrArg List.length h
  revert hlength
  decide +kernel

end ComponentAudit
