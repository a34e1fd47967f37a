import ComponentAudit.Proofs.Shift.Usage

/-! # Uses of selectors below a line feed

The class attributes of a markup with a line feed in front are the old ones further on, with the same
values, so every class, id and element is used where it was used before. The tag around a place is the
same one, since a line feed opens none. -/

namespace ComponentAudit

/-- The last tag in front of a place, if there is one, moves on by one. -/
theorem length_dropWhile_lineFeed (markup : Text) (offset : Nat) :
    ((('\n' :: markup).take (offset + 1 + 1)).reverse.dropWhile (· != '<')).length =
      match ((markup.take (offset + 1)).reverse.dropWhile (· != '<')).length with
      | 0 => 0
      | start + 1 => start + 2 := by
  rw [List.take_succ_cons, List.reverse_cons, List.dropWhile_append]
  cases (markup.take (offset + 1)).reverse.dropWhile (· != '<') with
  | nil => rfl
  | cons c before => simp

theorem enclosingElement_lineFeed (markup : Text) (offset : Nat) :
    enclosingElement ('\n' :: markup) (offset + 1) = enclosingElement markup offset := by
  rw [enclosingElement, enclosingElement, length_dropWhile_lineFeed]
  cases ((markup.take (offset + 1)).reverse.dropWhile (· != '<')).length with
  | zero => rfl
  | succ start =>
    simp only [Cursor.seek_lineFeed, Cursor.name?_lineDown]
    cases (Cursor.seek markup (start + 1)).name? isAsciiLetter isAttributeNameChar <;> rfl

theorem Document.LineBelow.markupUsage {above below : Document} (h : above.LineBelow below)
    (hne : above.markup.text ≠ []) (offset : Nat) (attributeName : Text) (elementName : Option Text) :
    below.markupUsage (offset + 1) attributeName elementName =
      (above.markupUsage offset attributeName elementName).shift 1 := by
  simp only [Document.markupUsage, h.markup.sourceIndex hne, h.usageAt, h.markup.text,
    enclosingElement_lineFeed]
  rfl

/-! ## Class attributes -/

namespace ClassAttribute

/-- The attribute after the markup got a line feed in front. -/
def lineDown (found : ClassAttribute) : ClassAttribute where
  offset := found.offset + 1
  value := found.value
  valueOffset := found.valueOffset + 1
  stop := found.stop + 1

theorem startsAttribute_lineDown (c : Cursor) : startsAttribute c.lineDown = startsAttribute c := by
  rw [startsAttribute, startsAttribute, Cursor.prev?_lineDown (by decide)]

theorem assignment?_lineDown (name : Text) (c : Cursor) :
    assignment? name c.lineDown =
      (assignment? name c).map fun (found, stop) => ((found.1 + 1, found.2.lineDown), stop.lineDown) := by
  unfold assignment?
  rw [startsAttribute_lineDown]
  by_cases hs : startsAttribute c
  · simp only [hs, Bool.not_true, Bool.false_eq_true, if_false, Option.bind_eq_bind,
      Cursor.expect?_lineDown]
    cases c.expect? name with
    | none => rfl
    | some named =>
      simp only [Option.map_some, Option.bind_some, Cursor.skipSpaces_lineDown, Cursor.expect?_lineDown]
      cases named.skipSpaces.expect? "=" with
      | none => rfl
      | some assigned => simp
  · simp only [hs, Bool.not_false, if_true, Option.map_none]

theorem assignment?_at_lineFeed {name : Text} (hname : OpensInk name) (hne : name ≠ [])
    (before t : Text) : assignment? name ⟨before, '\n' :: t⟩ = none := by
  unfold assignment?
  rw [Cursor.expect?_at_lineFeed hname hne]
  split <;> rfl

theorem ofValue?_lineDown (offset : Nat) (place : Cursor) :
    ofValue? (offset + 1) place.lineDown = (ofValue? offset place).map lineDown := by
  unfold ofValue?
  rw [Cursor.after_lineDown]
  cases hafter : place.after with
  | nil => rfl
  | cons c rest =>
    simp only [Cursor.offset_lineDown]
    split
    · split
      · simp only [Option.map_some, lineDown, Option.some.injEq, ClassAttribute.mk.injEq, true_and]
        omega
      · rfl
    · split
      · cases Bracket.closing? '{' '}' (c :: rest) with
        | none => rfl
        | some size =>
          simp only [Option.map_some, lineDown, Option.some.injEq, ClassAttribute.mk.injEq, true_and]
          omega
      · rfl

theorem findAll_lineFeed (markup : Text) :
    findAll ('\n' :: markup) = (findAll markup).map lineDown := by
  have hassigned : Cursor.collect (assignment? "class") ('\n' :: markup) =
      (Cursor.collect (assignment? "class") markup).map
        fun found => (found.1 + 1, found.2.lineDown) :=
    Cursor.collect_lineFeed (assignment?_lineDown "class") markup
      (assignment?_at_lineFeed (by decide) (by decide) [] markup)
  rw [findAll, findAll, hassigned, List.filterMap_map, List.map_filterMap]
  congr 1
  funext found
  exact ofValue?_lineDown found.1 found.2

theorem findAll_nil : findAll [] = [] := rfl

theorem wordOffset?_lineDown (found : ClassAttribute) (name : Text) :
    found.lineDown.wordOffset? name = (found.wordOffset? name).map (· + 1) := by
  rw [wordOffset?, wordOffset?, List.map_findSome?]
  congr 1
  funext word
  simp only [Function.comp_apply, lineDown]
  split
  · simp only [Option.map_some, Option.some.injEq]
    omega
  · rfl

theorem staticOffset?_lineDown (found : ClassAttribute) (name : Text) :
    found.lineDown.staticOffset? name = (found.staticOffset? name).map (· + 1) := by
  simp only [staticOffset?, wordOffset?_lineDown, show found.lineDown.value = found.value from rfl]
  split
  · cases found.wordOffset? ((Text.splitOn '.' name).headD []) <;> rfl
  · rfl

/-- Every text that the whole markup is searched for opens with a quote. -/
theorem composes_lineDown (found : ClassAttribute) (markup name : Text) :
    found.lineDown.composes ('\n' :: markup) name = found.composes markup name := by
  have hquoted : ∀ (q : Char), q ≠ '\n' → ∀ rest : Text,
      Text.mentions ('\n' :: markup) (q :: rest) = Text.mentions markup (q :: rest) := by
    intro q hq rest
    refine Text.mentions_lineFeed ?_ markup
    simpa [OpensInk] using hq
  simp only [composes, show found.lineDown.value = found.value from rfl, List.any_cons, List.any_nil]
  simp only [show ("'" : String).toList = ['\''] from rfl, show ("\"" : String).toList = ['"'] from rfl,
    show ("\x60" : String).toList = ['\x60'] from rfl, List.cons_append, List.nil_append]
  rw [hquoted '\'' (by decide), hquoted '"' (by decide), hquoted '\x60' (by decide),
    hquoted '"' (by decide), hquoted '\'' (by decide)]

theorem classOffset?_lineDown (found : ClassAttribute) (markup name : Text) :
    found.lineDown.classOffset? ('\n' :: markup) name = (found.classOffset? markup name).map (· + 1) := by
  rw [classOffset?, classOffset?, staticOffset?_lineDown, composes_lineDown]
  cases found.staticOffset? name with
  | some offset => rfl
  | none =>
    simp only [Option.map_none, Option.none_or, show found.lineDown.isDynamic = found.isDynamic from rfl]
    cases found.isDynamic && found.composes markup name <;> rfl

end ClassAttribute

/-! ## Classes, ids and elements -/

namespace StyleSelector

theorem directiveOffsets_lineFeed (markup name : Text) :
    directiveOffsets ('\n' :: markup) name = (directiveOffsets markup name).map (· + 1) := by
  have hink : OpensInk ("class:" ++ directiveClass name) := by simp [OpensInk]
  simp only [directiveOffsets]
  rw [Text.occurrences_lineFeed hink, List.filter_map]
  congr 2
  funext hit
  simp only [Function.comp_apply, Cursor.seek_lineFeed, Cursor.prev?_lineDown isIdentChar_lineFeed,
    Cursor.after_lineDown]

theorem quotedOffsets_lineFeed (attributes : List ClassAttribute) (markup name : Text) :
    quotedOffsets (attributes.map (·.lineDown)) ('\n' :: markup) name =
      (quotedOffsets attributes markup name).map (· + 1) := by
  have hquote : ∀ q : Text, q ≠ [] → OpensInk q →
      ((Text.occurrences ('\n' :: markup) (q ++ name ++ q)).filter fun hit =>
        !(attributes.map (·.lineDown)).any fun found => found.offset ≤ hit && hit < found.stop) =
      ((Text.occurrences markup (q ++ name ++ q)).filter fun hit =>
        !attributes.any fun found => found.offset ≤ hit && hit < found.stop).map (· + 1) := by
    intro q hq hink
    have hneedle : OpensInk (q ++ name ++ q) := by
      cases q with
      | nil => exact absurd rfl hq
      | cons c q => exact hink
    rw [Text.occurrences_lineFeed hneedle, List.filter_map]
    congr 2
    funext hit
    simp [List.any_map, Function.comp_def, ClassAttribute.lineDown]
  simp only [quotedOffsets, List.flatMap_cons, List.flatMap_nil, List.append_nil, List.map_append]
  rw [hquote _ (by decide) (by decide), hquote _ (by decide) (by decide)]

theorem idAttribute?_lineDown (c : Cursor) :
    idAttribute? c.lineDown =
      (idAttribute? c).map fun (found, stop) => ((found.1 + 1, found.2), stop.lineDown) := by
  unfold idAttribute?
  rw [ClassAttribute.assignment?_lineDown]
  cases ClassAttribute.assignment? "id" c with
  | none => rfl
  | some assigned =>
    simp only [Option.map_some, Option.bind_eq_bind, Option.bind_some, Cursor.peek?_lineDown]
    cases assigned.1.2.peek? with
    | none => rfl
    | some quote =>
      simp only [Option.bind_some]
      split
      · rw [Cursor.advance_lineDown, Cursor.quoted?_lineDown]
        cases (assigned.1.2.advance 1).quoted? quote <;> rfl
      · rfl

variable {above below : Document} (h : above.LineBelow below)
include h

/-- Uses found at offsets of the markup, each with the attribute to report. -/
theorem map_markupUsage {hits : List (Nat × Text)} (hnone : above.markup.text = [] → hits = []) :
    ((hits.map fun hit => (hit.1 + 1, hit.2)).map fun hit => below.markupUsage hit.1 hit.2 none) =
      (hits.map fun hit => above.markupUsage hit.1 hit.2 none).map (·.shift 1) := by
  by_cases hempty : above.markup.text = []
  · rw [hnone hempty]
    rfl
  · simp only [List.map_map, Function.comp_def, h.markupUsage hempty]

theorem classUsages_lineFeed (name : Text) :
    classUsages below (ClassAttribute.findAll below.markup.text) name =
      (classUsages above (ClassAttribute.findAll above.markup.text) name).map (·.shift 1) := by
  have hattributes : ((ClassAttribute.findAll above.markup.text).map (·.lineDown)).filterMap
        (fun found => (found.classOffset? ('\n' :: above.markup.text) name).map
          fun offset => (offset, ("class" : Text))) =
      ((ClassAttribute.findAll above.markup.text).filterMap
        fun found => (found.classOffset? above.markup.text name).map
          fun offset => (offset, ("class" : Text))).map fun hit => (hit.1 + 1, hit.2) := by
    rw [List.filterMap_map, List.map_filterMap]
    congr 1
    funext found
    simp only [Function.comp_apply, ClassAttribute.classOffset?_lineDown, Option.map_map]
    rfl
  have hmark : ∀ (hits : List Nat) (kind : Text),
      ((hits.map (· + 1)).map fun hit => (hit, kind)) =
        (hits.map fun hit => (hit, kind)).map fun hit => (hit.1 + 1, hit.2) := by
    intro hits kind
    simp only [List.map_map, Function.comp_def]
  simp only [classUsages]
  rw [h.markup.text, ClassAttribute.findAll_lineFeed, hattributes, directiveOffsets_lineFeed,
    quotedOffsets_lineFeed, hmark, hmark, ← List.map_append, ← List.map_append]
  rw [← List.map_mergeSort (r := fun a b => decide (a.1 ≤ b.1)) fun a _ b _ => by simp]
  refine map_markupUsage h fun hempty => ?_
  simp [hempty, ClassAttribute.findAll_nil, directiveOffsets, quotedOffsets, Text.occurrences_nil]

theorem idUsages_lineFeed (selector : StyleSelector) :
    idUsages below (selector.shift 1) = (idUsages above selector).map (·.shift 1) := by
  have hids : Cursor.collect idAttribute? ('\n' :: above.markup.text) =
      (Cursor.collect idAttribute? above.markup.text).map fun found => (found.1 + 1, found.2) := by
    refine Cursor.collect_lineFeed idAttribute?_lineDown above.markup.text ?_
    rw [idAttribute?, ClassAttribute.assignment?_at_lineFeed (by decide) (by decide)]
    rfl
  rw [idUsages, idUsages, h.options, show (selector.shift 1).name = selector.name from rfl,
    show (selector.shift 1).isGlobal = selector.isGlobal from rfl, h.markup.text, hids]
  split
  · rfl
  · by_cases hempty : above.markup.text = []
    · rw [hempty]
      rfl
    · rw [List.filterMap_map, List.map_filterMap]
      congr 1
      funext found
      simp only [Function.comp_apply, h.markupUsage hempty]
      split <;> rfl

theorem elementUsages_lineFeed (name : Text) :
    elementUsages below name = (elementUsages above name).map (·.shift 1) := by
  have hink : OpensInk ('<' :: name) := by simp [OpensInk]
  simp only [elementUsages, h.markup.text]
  rw [Text.occurrences_lineFeed hink, List.filter_map, List.map_map]
  by_cases hempty : above.markup.text = []
  · simp only [hempty, Text.occurrences_nil, List.filter_nil, List.map_nil]
  · rw [List.map_map]
    congr 1
    · funext hit
      exact h.markupUsage hempty hit "element" (some name)
    · congr 1
      funext hit
      have hskip : hit + 1 + name.length = hit + name.length + 1 := by omega
      simp only [Function.comp_apply, List.drop_succ_cons, hskip]

theorem findUsages_lineFeed (selector : StyleSelector) :
    (selector.shift 1).findUsages below (ClassAttribute.findAll below.markup.text) =
      (selector.findUsages above (ClassAttribute.findAll above.markup.text)).map (·.shift 1) := by
  rw [findUsages, findUsages, show (selector.shift 1).kind = selector.kind from rfl]
  cases selector.kind with
  | cssClass => exact classUsages_lineFeed h selector.name
  | id => exact idUsages_lineFeed h selector
  | element => exact elementUsages_lineFeed h selector.name
  | «attribute» => rfl
  | descendant => rfl

end StyleSelector

end ComponentAudit
