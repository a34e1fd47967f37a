import ComponentAudit.Proofs.Text.Reading
import ComponentAudit.Proofs.Text.Split
import ComponentAudit.Usage.Selector

/-! # Evidence for classes

Where a markup itself shows that a class is used: it is a word of a class attribute, a directive sets
it, or its name stands in quotes outside the class attributes. No class attribute is missed, since
none of its characters up to the value but the first starts another. -/

namespace ComponentAudit

namespace ClassAttribute

/-! ## Attributes -/

theorem reads_of_assignment? {name : Text} {c stop : Cursor} {found : Nat × Cursor}
    (h : assignment? name c = some (found, stop)) :
    ∃ s₁ s₂, Blank s₁ ∧ Blank s₂ ∧ c.Reads (name ++ s₁ ++ "=" ++ s₂) stop := by
  unfold assignment? at h
  split at h
  · cases h
  · simp only [Option.bind_eq_bind, Option.bind_eq_some_iff] at h
    obtain ⟨named, hnamed, assigned, hassigned, he⟩ := h
    obtain ⟨rfl, rfl⟩ := Prod.mk.inj (Option.some.inj he)
    obtain ⟨s₁, h₁, hs₁⟩ := Cursor.reads_skipSpaces named
    obtain ⟨s₂, h₂, hs₂⟩ := Cursor.reads_skipSpaces assigned
    refine ⟨s₁, s₂, h₁, h₂, ?_⟩
    exact (((Cursor.expect?_eq_some.mp hnamed).trans hs₁).trans
      (Cursor.expect?_eq_some.mp hassigned)).trans hs₂

theorem assignment?_of_reads {name s₁ s₂ : Text} {c stop : Cursor}
    (hstart : startsAttribute c = true) (h₁ : Blank s₁) (h₂ : Blank s₂)
    (h : c.Reads (name ++ s₁ ++ "=" ++ s₂) stop) (hstop : ∀ x, stop.peek? = some x → isSpace x = false) :
    assignment? name c = some ((c.offset, stop), stop) := by
  obtain ⟨assigned, hfront, hs₂⟩ := h.split
  obtain ⟨equals, hfront, hassigned⟩ := hfront.split
  obtain ⟨named, hnamed, hs₁⟩ := hfront.split
  have hskip₁ := Cursor.skipSpaces_of_reads hs₁ h₁ hassigned (by decide)
  have hskip₂ : assigned.skipSpaces = stop := Cursor.skipWhile_of_reads hs₂ h₂ hstop
  simp only [assignment?, hstart, Bool.not_true, Bool.false_eq_true, if_false, Option.bind_eq_bind,
    Option.bind_some, Cursor.expect?_eq_some.mpr hnamed, hskip₁,
    Cursor.expect?_eq_some.mpr hassigned, hskip₂]

/-- A text opens with a value: in quotes that it does not hold, or up to the brace that closes its
first. -/
def OpensValue (t value : Text) : Prop :=
  (∃ q after, (q = '"' ∨ q = '\'') ∧ q ∉ value ∧ t = q :: (value ++ q :: after)) ∨
    ∃ more after, value = '{' :: more ∧ t = value ++ after ∧
      Bracket.closing? '{' '}' t = some more.length

theorem OpensValue.ofValue? {place : Cursor} {value : Text} (h : OpensValue place.after value)
    (offset : Nat) : ∃ found, ofValue? offset place = some found ∧ found.value = value := by
  rcases h with ⟨q, after, hq, hfree, ht⟩ | ⟨more, after, rfl, ht, hclosing⟩
  · have hquote : (q == '"' || q == '\'') = true := by
      rcases hq with rfl | rfl <;> rfl
    have hvalue : (value ++ q :: after).takeWhile (· != q) = value := by
      refine takeWhile_append_of_stop (fun c hc => ?_) fun c hc => ?_
      · simpa using fun he : c = q => hfree (he ▸ hc)
      · obtain rfl := Option.some.inj hc
        simp
    refine ⟨⟨offset, value, place.offset + 1, place.offset + value.length + 2⟩, ?_, rfl⟩
    simp only [ClassAttribute.ofValue?, ht, hquote, if_true, hvalue]
    simp
  · refine ⟨⟨offset, '{' :: more, place.offset, place.offset + more.length + 1⟩, ?_, rfl⟩
    rw [ht, List.cons_append] at hclosing
    simp only [ClassAttribute.ofValue?, ht, hclosing, List.cons_append, Option.map_some]
    simp

/-- A markup holds a class attribute with a value. -/
def ValueIn (markup value : Text) : Prop :=
  ∃ before s₁ s₂ rest, markup = before ++ (("class" ++ s₁ ++ "=" ++ s₂) ++ rest) ∧
    Blank s₁ ∧ Blank s₂ ∧
    (∀ c, before.getLast? = some c → (isWordChar c || c == ':' || c == '-') = false) ∧
    OpensValue rest value

/-- What opens a value is no white space. -/
theorem OpensValue.head {t value : Text} (h : OpensValue t value) {x : Char} (hx : t.head? = some x) :
    isSpace x = false := by
  rcases h with ⟨q, after, hq, -, rfl⟩ | ⟨more, after, rfl, rfl, -⟩
  · obtain rfl := Option.some.inj hx
    rcases hq with rfl | rfl <;> decide
  · obtain rfl := Option.some.inj hx
    decide

/-- Every class attribute is found with its value. -/
theorem ValueIn.mem_findAll {markup value : Text} (h : ValueIn markup value) :
    ∃ found ∈ findAll markup, found.value = value := by
  obtain ⟨before, s₁, s₂, rest, rfl, h₁, h₂, hfresh, hvalue⟩ := h
  let place : Cursor := ⟨before.reverse, ("class" ++ s₁ ++ "=" ++ s₂) ++ rest⟩
  have hplace : place.text = before ++ (("class" ++ s₁ ++ "=" ++ s₂) ++ rest) := by
    simp [place, Cursor.text]
  have hstart : startsAttribute place = true := by
    simp only [startsAttribute, place, Cursor.prev?, List.head?_reverse]
    cases hlast : before.getLast? with
    | none => rfl
    | some c => simp [hfresh c hlast]
  have hreads := Cursor.reads_append before.reverse ("class" ++ s₁ ++ "=" ++ s₂) rest
  have hmatch := assignment?_of_reads hstart h₁ h₂ hreads fun x hx => hvalue.head hx
  have hmem := Cursor.mem_collect_of_clear hmatch (by simp [place]) fun c found stop htext hfound hlt => by
    obtain ⟨u₁, u₂, hu₁, hu₂, hread⟩ := reads_of_assignment? hfound
    have hspace : isSpace 'c' = false := by decide
    refine hread.clear htext hlt (x := 'c') rfl ?_
    simp [hu₁.not_mem hspace, hu₂.not_mem hspace]
  let stop : Cursor := ⟨("class" ++ s₁ ++ "=" ++ s₂).reverse ++ before.reverse, rest⟩
  have hopens : OpensValue stop.after value := hvalue
  obtain ⟨found, hfound, hval⟩ := hopens.ofValue? place.offset
  refine ⟨found, List.mem_filterMap.mpr ⟨_, hplace ▸ hmem, hfound⟩, hval⟩

end ClassAttribute

namespace StyleSelector

/-! ## Classes without uses -/

/-- A directive sets a class: not part of a longer name on either side. -/
def DirectiveIn (markup name : Text) : Prop :=
  ∃ before after, markup = before ++ ("class:" ++ name) ++ after ∧
    (∀ c, before.getLast? = some c → isIdentChar c = false) ∧
    ∀ c, after.head? = some c → (isTagNameEnd c || c == '=') = true

/-- A name stands in quotes outside all class attributes. -/
def QuotedIn (markup name : Text) : Prop :=
  ∃ q before after, (q = '\'' ∨ q = '"') ∧ markup = before ++ (q :: name ++ [q]) ++ after ∧
    ∀ found ∈ ClassAttribute.findAll markup, ¬ (found.offset ≤ before.length ∧ before.length < found.stop)

variable {markup name : Text}

theorem DirectiveIn.mem_directiveOffsets (h : DirectiveIn markup name) (hdot : '.' ∉ name) :
    ∃ hit, hit ∈ directiveOffsets markup name := by
  obtain ⟨before, after, rfl, hfresh, hend⟩ := h
  have hclass : directiveClass name = name := by
    rw [directiveClass, if_neg (by simpa using hdot)]
  have hprev : before.getLast?.any isIdentChar = false := by
    cases hlast : before.getLast? with
    | none => rfl
    | some c => exact hfresh c hlast
  have hnext : after.head?.any (fun c => !(isTagNameEnd c || c == '=')) = false := by
    cases hhead : after.head? with
    | none => rfl
    | some c => rw [Option.any_some, hend c hhead, Bool.not_true]
  have hseek : Cursor.seek (before ++ ("class:" ++ name) ++ after) before.length =
      ⟨before.reverse, ("class:" ++ name) ++ after⟩ := by
    rw [Cursor.seek, List.append_assoc, List.take_left, List.drop_left]
  refine ⟨before.length, List.mem_filter.mpr ⟨?_, ?_⟩⟩
  · rw [hclass]
    exact Text.mem_occurrences.mpr ⟨by simp, before, after, rfl, rfl⟩
  · simp only [hclass, hseek, Cursor.prev?, List.head?_reverse, hprev, List.drop_left, hnext,
      Bool.not_false, Bool.and_self]

theorem QuotedIn.mem_quotedOffsets (h : QuotedIn markup name) :
    ∃ hit, hit ∈ quotedOffsets (ClassAttribute.findAll markup) markup name := by
  obtain ⟨q, before, after, hq, hsplit, houtside⟩ := h
  refine ⟨before.length, List.mem_flatMap.mpr ⟨[q], ?_, List.mem_filter.mpr ⟨?_, ?_⟩⟩⟩
  · rcases hq with rfl | rfl <;> simp
  · exact Text.mem_occurrences.mpr ⟨by simp, before, after, hsplit, rfl⟩
  · rw [Bool.not_eq_true', List.any_eq_false]
    intro found hfound
    simpa using houtside found hfound

/-- A word of a class attribute makes the attribute a use of it. -/
theorem classOffset?_of_mem_words {found : ClassAttribute} (hdot : '.' ∉ name)
    (h : name ∈ Text.words found.value) : (found.classOffset? markup name).isSome = true := by
  have hstatic : found.staticOffset? name = some ((found.wordOffset? name).getD found.offset) := by
    simp [ClassAttribute.staticOffset?, Text.splitOn_of_not_mem hdot, h]
  rw [ClassAttribute.classOffset?, hstatic]
  rfl

/-- A markup shows the use of a class. -/
def ClassEvidence (markup name : Text) : Prop :=
  (∃ value, ClassAttribute.ValueIn markup value ∧ name ∈ Text.words value) ∨
    DirectiveIn markup name ∨ QuotedIn markup name

/-- A class without uses has no evidence in the markup. -/
theorem no_evidence_of_classUsages {document : Document} (hdot : '.' ∉ name)
    (h : classUsages document (ClassAttribute.findAll document.markup.text) name = []) :
    ¬ ClassEvidence document.markup.text name := by
  have hnone := List.map_eq_nil_iff.mp h
  have hempty : ∀ hit, hit ∉ ((ClassAttribute.findAll document.markup.text).filterMap fun found =>
        (found.classOffset? document.markup.text name).map fun offset => (offset, ("class" : Text))) ++
      ((directiveOffsets document.markup.text name).map fun hit => (hit, ("class:directive" : Text))) ++
      ((quotedOffsets (ClassAttribute.findAll document.markup.text) document.markup.text name).map
        fun hit => (hit, ("dynamic" : Text))) := by
    intro hit hmem
    rw [← List.mem_mergeSort, hnone] at hmem
    cases hmem
  rintro (⟨value, hvalue, hword⟩ | hdirective | hquoted)
  · obtain ⟨found, hfound, rfl⟩ := hvalue.mem_findAll
    obtain ⟨offset, hoffset⟩ := Option.isSome_iff_exists.mp
      (@classOffset?_of_mem_words document.markup.text name found hdot hword)
    refine hempty (offset, "class") (List.mem_append_left _ (List.mem_append_left _ ?_))
    exact List.mem_filterMap.mpr ⟨found, hfound, by rw [hoffset]; rfl⟩
  · obtain ⟨hit, hmem⟩ := hdirective.mem_directiveOffsets hdot
    exact hempty _ (List.mem_append_left _ (List.mem_append_right _ (List.mem_map_of_mem hmem)))
  · obtain ⟨hit, hmem⟩ := hquoted.mem_quotedOffsets
    exact hempty _ (List.mem_append_right _ (List.mem_map_of_mem hmem))

end StyleSelector

end ComponentAudit
