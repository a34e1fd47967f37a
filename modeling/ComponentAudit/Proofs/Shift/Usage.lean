import ComponentAudit.Proofs.Script.Name
import ComponentAudit.Proofs.Shift.Region

/-! # Uses below a line feed

The searches for uses in a document with a line feed in front (`Document.LineBelow`) find the uses of
the old document further down. Hits in the file move on by one. Hits in the markup move on by one too,
and so do the places they come from, unless the old markup is empty: then nothing is found in either. -/

namespace ComponentAudit

/-- One document is the other with a line feed in front. -/
structure Document.LineBelow (above below : Document) : Prop where
  text : below.text = '\n' :: above.text
  position : ∀ offset, below.index.position (offset + 1) = (above.index.position offset).shift 1
  markup : Markup.LineBelow above.markup below.markup
  sheets : below.sheets = above.sheets
  options : below.options = above.options

/-! ## Names open with ink -/

theorem isIdentChar_lineFeed : isIdentChar '\n' = false := by decide

theorem IsName.opensInk {name : Text} (h : IsName name) : OpensInk name := by
  intro hhead
  obtain ⟨rest, rfl⟩ := List.head?_eq_some_iff.mp hhead
  have hlf := h.2 '\n' List.mem_cons_self
  rw [isIdentChar_lineFeed] at hlf
  cases hlf

/-- A text in front of a name: it opens with ink, or it is empty and the name does. -/
theorem OpensInk.append {front name : Text} (hfront : OpensInk front) (hname : OpensInk name)
    (more : Text) (hne : name ≠ []) : OpensInk (front ++ name ++ more) := by
  cases front with
  | cons c front => exact hfront
  | nil =>
    cases name with
    | nil => exact absurd rfl hne
    | cons c name => exact hname

/-! ## Offsets and uses -/

theorem eraseDups_map_succ : ∀ l : List Nat, (l.map (· + 1)).eraseDups = l.eraseDups.map (· + 1)
  | [] => rfl
  | a :: l => by
    have hfilter : (l.map (· + 1)).filter (fun b => !b == a + 1) =
        (l.filter fun b => !b == a).map (· + 1) := by
      rw [List.filter_map]
      congr 2
      funext b
      by_cases hb : b = a <;> simp [hb]
    have hlen : (l.filter fun b => !b == a).length < l.length + 1 :=
      Nat.lt_succ_of_le (List.length_filter_le _ l)
    rw [List.map_cons, List.eraseDups_cons, List.eraseDups_cons, hfilter, eraseDups_map_succ,
      List.map_cons]
termination_by l => l.length

theorem sortOffsets_map_succ (l : List Nat) :
    sortOffsets (l.map (· + 1)) = (sortOffsets l).map (· + 1) := by
  have hsort : (l.map (· + 1)).mergeSort (fun a b => a ≤ b) =
      (l.mergeSort fun a b => a ≤ b).map (· + 1) :=
    (List.map_mergeSort fun a _ b _ => by simp).symm
  rw [sortOffsets, hsort, eraseDups_map_succ, sortOffsets]

namespace Document.LineBelow

variable {above below : Document} (h : above.LineBelow below)
include h

theorem usageAt (offset : Nat) : below.usageAt (offset + 1) = (above.usageAt offset).shift 1 := by
  simp only [Document.usageAt, Usage.shift, h.position, h.text, lineContext_lineFeed]

theorem map_usageAt (offsets : List Nat) :
    (offsets.map (· + 1)).map below.usageAt = (offsets.map above.usageAt).map (·.shift 1) := by
  simp only [List.map_map, Function.comp_def, h.usageAt]

end Document.LineBelow

/-- Hits in the markup come from one character further on. -/
theorem Markup.LineBelow.map_sourceIndex {above below : Markup} (h : LineBelow above below)
    {hits : List Nat} (hnone : above.text = [] → hits = []) :
    (hits.map (· + 1)).map below.sourceIndex = (hits.map above.sourceIndex).map (· + 1) := by
  by_cases hempty : above.text = []
  · rw [hnone hempty]
    rfl
  · simp only [List.map_map, Function.comp_def, h.sourceIndex hempty]

theorem Text.occurrences_nil (needle : Text) : occurrences [] needle = [] := by
  rw [occurrences]
  split <;> rfl

theorem Text.tokens_nil (name : Text) : tokens [] name = [] := by
  rw [tokens, tokensIn, occurrencesIn, occurrences_nil]
  rfl

/-! ## Variables -/

theorem owningScript?_shift (scripts : List ScriptRegion) (offset : Nat) :
    owningScript? (scripts.map (·.shift 1)) (offset + 1) =
      (owningScript? scripts offset).map (·.shift 1) := by
  rw [owningScript?, owningScript?, List.find?_map]
  congr 2
  funext region
  simp [ScriptRegion.shift, ElementSpan.shift]

theorem inMarkupExpression_lineDown (c : Cursor) :
    inMarkupExpression c.lineDown = inMarkupExpression c := by
  rw [inMarkupExpression, inMarkupExpression, Cursor.lineDown, List.find?_append]
  have hlf : ['\n'].find? (fun ch => ch == '{' || ch == '}') = none := by decide
  rw [hlf, Option.or_none]

/-- A line feed in front matters only to a directive that reaches back to it. -/
theorem isPrefixOf_before_lineDown {word : Text} (hlf : '\n' ∉ word) (c : Cursor) :
    word.isPrefixOf c.lineDown.before = word.isPrefixOf c.before := by
  rw [Cursor.lineDown]
  generalize c.before = before
  induction word generalizing before with
  | nil => simp
  | cons w word ih =>
    simp only [List.mem_cons, not_or] at hlf
    cases before with
    | nil =>
      have hw : (w == '\n') = false := by simpa using fun he : w = '\n' => hlf.1 he.symm
      simp [List.isPrefixOf, hw]
    | cons d before => simp only [List.cons_append, List.isPrefixOf, ih hlf.2]

theorem afterDirective_lineDown (c : Cursor) : afterDirective c.lineDown = afterDirective c := by
  simp only [afterDirective, List.any_cons, List.any_nil]
  rw [isPrefixOf_before_lineDown (by decide), isPrefixOf_before_lineDown (by decide)]

namespace Variable

variable {above below : Document} (h : above.LineBelow below)
include h

theorem scriptOffsets_lineFeed (scripts : List ScriptRegion) {found : Variable}
    (hname : OpensInk found.name) :
    scriptOffsets below (scripts.map (·.shift 1)) (found.shift 1) =
      (scriptOffsets above scripts found).map (· + 1) := by
  rw [scriptOffsets, scriptOffsets, show (found.shift 1).nameOffset = found.nameOffset + 1 from rfl,
    owningScript?_shift]
  cases owningScript? scripts found.nameOffset with
  | none => rfl
  | some region =>
    have htokens : ∀ {name : Text}, OpensInk name →
        below.text.tokensIn name (region.span.bodyStart + 1) (region.span.bodyEnd + 1) =
          (above.text.tokensIn name region.span.bodyStart region.span.bodyEnd).map (· + 1) := by
      intro name hink
      rw [h.text]
      exact Text.tokensIn_lineFeed hink above.text (fun p => by omega) _
    have hstore : OpensInk ('$' :: found.name) := by simp [OpensInk]
    simp only [Option.map_some, ScriptRegion.shift, ElementSpan.shift,
      show (found.shift 1).name = found.name from rfl, htokens hname, htokens hstore,
      List.filter_map, List.map_append]
    congr 3
    funext offset
    simp [bne]

theorem markupOffsets_lineFeed {found : Variable} (hname : OpensInk found.name) :
    markupOffsets below (found.shift 1) = (markupOffsets above found).map (· + 1) := by
  have hread : ∀ name, OpensInk name →
      (((Text.tokens below.markup.text name).filter fun offset =>
        inMarkupExpression (Cursor.seek below.markup.text offset) ||
          afterDirective (Cursor.seek below.markup.text offset)).map below.markup.sourceIndex) =
      (((Text.tokens above.markup.text name).filter fun offset =>
        inMarkupExpression (Cursor.seek above.markup.text offset) ||
          afterDirective (Cursor.seek above.markup.text offset)).map
            above.markup.sourceIndex).map (· + 1) := by
    intro name hink
    rw [h.markup.text, Text.tokens_lineFeed hink, List.filter_map]
    simp only [Function.comp_def, Cursor.seek_lineFeed, inMarkupExpression_lineDown,
      afterDirective_lineDown]
    exact h.markup.map_sourceIndex fun hempty => by rw [hempty, Text.tokens_nil, List.filter_nil]
  have hstore : OpensInk ('$' :: found.name) := by simp [OpensInk]
  simp only [markupOffsets, readNames, List.flatMap_cons, List.flatMap_nil, List.append_nil,
    show (found.shift 1).name = found.name from rfl, hread _ hname, hread _ hstore, List.map_append]

theorem findUsages_lineFeed (scripts : List ScriptRegion) {found : Variable}
    (hname : OpensInk found.name) :
    (found.shift 1).findUsages below (scripts.map (·.shift 1)) =
      (found.findUsages above scripts).map (·.shift 1) := by
  rw [findUsages, findUsages, scriptOffsets_lineFeed h scripts hname, h.options]
  cases above.options.scanMarkup with
  | true =>
    simp only [if_true]
    rw [markupOffsets_lineFeed h hname, ← List.map_append, sortOffsets_map_succ, h.map_usageAt]
  | false =>
    simp only [Bool.false_eq_true, if_false, List.append_nil]
    rw [sortOffsets_map_succ, h.map_usageAt]

end Variable

/-! ## Functions and imports -/

namespace Function

theorem probe_opensInk : ∀ probe ∈ probes, OpensInk probe.1 := by
  decide

theorem listenerCall_opensInk : ∀ call ∈ listenerCalls, OpensInk call := by
  decide

theorem probeOffsets_lineFeed (t : Text) {name : Text} (hname : IsName name) {probe : Text × Text}
    (hprobe : OpensInk probe.1) :
    probeOffsets ('\n' :: t) name probe = (probeOffsets t name probe).map (· + 1) := by
  rw [probeOffsets, probeOffsets,
    Text.occurrences_lineFeed (hprobe.append hname.opensInk probe.2 hname.1), List.filter_map]
  congr 2
  funext hit
  have hstart : hit + 1 + probe.1.length = hit + probe.1.length + 1 := by omega
  have hstop : hit + 1 + probe.1.length + name.length = hit + probe.1.length + name.length + 1 := by
    omega
  simp only [Function.comp_apply]
  rw [hstop, hstart, Text.isWholeToken_lineFeed]

theorem listenerOffsets_lineFeed (t name : Text) {call : Text} (hcall : OpensInk call) :
    listenerOffsets ('\n' :: t) name call = (listenerOffsets t name call).map (· + 1) := by
  rw [listenerOffsets, listenerOffsets, Text.occurrences_lineFeed hcall, List.filter_map]
  congr 2
  funext hit
  have hskip : hit + 1 + call.length = hit + call.length + 1 := by omega
  simp only [Function.comp_apply, hskip, List.drop_succ_cons]

theorem findUsages_lineFeed {above below : Document} (h : above.LineBelow below) {found : Function}
    (hname : IsName found.name) :
    (found.shift 1).findUsages below = (found.findUsages above).map (·.shift 1) := by
  have hprobes : probes.flatMap (probeOffsets below.text found.name) =
      (probes.flatMap (probeOffsets above.text found.name)).map (· + 1) := by
    rw [List.map_flatMap, h.text, List.flatMap_def, List.flatMap_def]
    congr 1
    exact List.map_congr_left fun probe hp => probeOffsets_lineFeed _ hname (probe_opensInk probe hp)
  have hcalls : listenerCalls.flatMap (listenerOffsets below.text found.name) =
      (listenerCalls.flatMap (listenerOffsets above.text found.name)).map (· + 1) := by
    rw [List.map_flatMap, h.text, List.flatMap_def, List.flatMap_def]
    congr 1
    exact List.map_congr_left fun call hc => listenerOffsets_lineFeed _ _ (listenerCall_opensInk call hc)
  simp only [findUsages, show (found.shift 1).name = found.name from rfl, hprobes, hcalls,
    ← List.map_append, sortOffsets_map_succ, List.filter_map]
  rw [h.map_usageAt]
  congr 3
  funext offset
  simp [h.position, Position.shift, Function.shift, bne]

end Function

theorem Import.findUsages_lineFeed {above below : Document} (h : above.LineBelow below)
    {found : Import} (hnames : ∀ symbol ∈ found.symbols, OpensInk symbol) :
    (found.shift 1).findUsages below = (found.findUsages above).map (·.shift 1) := by
  have hhits : (found.symbols.flatMap fun symbol =>
        (Text.tokens below.text symbol).filter fun offset =>
          !((found.shift 1).offset ≤ offset && offset < (found.shift 1).endOffset)) =
      (found.symbols.flatMap fun symbol =>
        (Text.tokens above.text symbol).filter fun offset =>
          !(found.offset ≤ offset && offset < found.endOffset)).map (· + 1) := by
    rw [List.map_flatMap, List.flatMap_def, List.flatMap_def]
    congr 1
    refine List.map_congr_left fun symbol hs => ?_
    rw [h.text, Text.tokens_lineFeed (hnames symbol hs), List.filter_map]
    congr 2
    funext offset
    simp [Import.shift]
  simp only [findUsages, show (found.shift 1).symbols = found.symbols from rfl, hhits,
    sortOffsets_map_succ]
  rw [h.map_usageAt]

/-! ## Components -/

/-- A word that a place at a line feed does not go on with. -/
theorem Cursor.expect?_at_lineFeed {word : Text} (hword : OpensInk word) (hne : word ≠ [])
    (before t : Text) : expect? word ⟨before, '\n' :: t⟩ = none := by
  cases word with
  | nil => exact absurd rfl hne
  | cons c word =>
    have hc : (c == '\n') = false := by simpa [OpensInk] using hword
    simp [expect?, startsWith, List.isPrefixOf, hc]

theorem isWordChar_lineFeed : isWordChar '\n' = false := by decide

namespace ComponentUsage

theorem tag?_lineDown (c : Cursor) :
    tag? c.lineDown = (tag? c).map fun (found, stop) => ((found.1 + 1, found.2), stop.lineDown) := by
  unfold tag?
  rw [Cursor.expect?_lineDown]
  cases c.expect? "<" with
  | none => rfl
  | some opened =>
    simp only [Option.map_some, Option.bind_eq_bind, Option.bind_some, Cursor.name?_lineDown]
    cases opened.name? isAsciiCapital
        (fun ch => isAsciiLetter ch || isAsciiDigit ch || ch == '_') with
    | none => rfl
    | some named => simp

theorem target?_lineDown (c : Cursor) :
    target? c.lineDown = (target? c).map fun (found, stop) => ((found.1 + 1, found.2), stop.lineDown) := by
  unfold target?
  rw [Cursor.prev?_lineDown isWordChar_lineFeed]
  by_cases hprev : c.prev?.any isWordChar
  · simp only [hprev, if_true, Option.map_none]
  · simp only [hprev, Bool.false_eq_true, if_false, Option.bind_eq_bind, Cursor.expect?_lineDown]
    cases c.expect? "this" with
    | none => rfl
    | some word =>
      simp only [Option.map_some, Option.bind_some, Cursor.skipSpaces_lineDown, Cursor.expect?_lineDown]
      cases word.skipSpaces.expect? "=" with
      | none => rfl
      | some assigned =>
        simp only [Option.map_some, Option.bind_some, Cursor.skipSpaces_lineDown,
          Cursor.expect?_lineDown]
        cases assigned.skipSpaces.expect? "\x7b" with
        | none => rfl
        | some brace =>
          simp only [Option.map_some, Option.bind_some, Cursor.skipSpaces_lineDown,
            Cursor.name?_lineDown]
          cases brace.skipSpaces.name? isAsciiCapital isIdentChar with
          | none => rfl
          | some named =>
            simp only [Option.map_some, Option.bind_some, Cursor.skipSpaces_lineDown,
              Cursor.expect?_lineDown, Cursor.offset_lineDown]
            cases named.2.skipSpaces.expect? "\x7d" <;> rfl

/-- Whether a tag is closed does not depend on its offset. -/
theorem filterMap_closed_lineFeed (tags : List (Nat × Text × Text)) :
    ((tags.map fun found => (found.1 + 1, found.2)).filterMap fun (offset, name, rest) =>
      if rest.contains '>' then some (offset, name) else none) =
    (tags.filterMap fun (offset, name, rest) =>
      if rest.contains '>' then some (offset, name) else none).map
        fun (offset, name) => (offset + 1, name) := by
  rw [List.filterMap_map, List.map_filterMap]
  congr 1
  funext found
  obtain ⟨offset, name, rest⟩ := found
  simp only [Function.comp_apply]
  split <;> rfl

theorem offsets_lineFeed (markup : Text) :
    offsets ('\n' :: markup) = (offsets markup).map fun (offset, name) => (offset + 1, name) := by
  have htags : Cursor.collect tag? ('\n' :: markup) =
      (Cursor.collect tag? markup).map fun found => (found.1 + 1, found.2) := by
    refine Cursor.collect_lineFeed tag?_lineDown markup ?_
    rw [tag?, Cursor.expect?_at_lineFeed (by decide) (by decide)]
    rfl
  have htargets : Cursor.collect target? ('\n' :: markup) =
      (Cursor.collect target? markup).map fun found => (found.1 + 1, found.2) := by
    refine Cursor.collect_lineFeed target?_lineDown markup ?_
    rw [target?, Cursor.expect?_at_lineFeed (by decide) (by decide)]
    rfl
  simp only [offsets, htags, htargets, filterMap_closed_lineFeed, ← List.map_append]
  exact (List.map_mergeSort fun a _ b _ => by simp).symm

theorem offsets_nil : offsets [] = [] := by
  simp [offsets, Cursor.collect, Cursor.collectFrom]

theorem findAll_lineFeed {above below : Document} (h : above.LineBelow below) :
    findAll below = (findAll above).map (·.shift 1) := by
  rw [findAll, findAll, h.markup.text, offsets_lineFeed]
  by_cases hempty : above.markup.text = []
  · rw [hempty, offsets_nil]
    rfl
  · simp only [List.map_map]
    refine List.map_congr_left fun found _ => ?_
    simp only [Function.comp_apply, h.markup.sourceIndex hempty, h.usageAt]
    rfl

end ComponentUsage

theorem ComponentImport.link_shift (usages : List ComponentUsage) (component : ComponentImport) :
    (component.shift 1).link (usages.map (·.shift 1)) = (component.link usages).shift 1 := by
  simp only [link, shift, List.filter_map, List.map_map]
  rfl

end ComponentAudit
