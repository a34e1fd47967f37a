import ComponentAudit.Proofs.Component.Blanking
import ComponentAudit.Proofs.Finding.Evidence

/-! # Classes in the branches of a conditional expression

A class attribute whose value holds an expression may name a class as a branch of a conditional: its
name in quotes behind a question mark or a colon. The search for such branches wants one blank between
the mark and the quote. With any other gap, none included, the class is not seen. -/

namespace ComponentAudit

/-! ## Texts with a gap -/

namespace Text

variable {word gap : Text}

theorem prefix_of_gap (front back : Text) (hword : ∀ c ∈ word, isSpace c = false) (hgap : Blank gap)
    (h : word <+: front ++ (gap ++ back)) : word <+: front ++ back := by
  induction front generalizing word with
  | nil =>
    cases gap with
    | nil => exact h
    | cons c gap =>
      cases word with
      | nil => exact List.nil_prefix
      | cons d word =>
        have hspace := hgap c List.mem_cons_self
        rw [← (List.cons_prefix_cons.mp h).1, hword d List.mem_cons_self] at hspace
        cases hspace
  | cons c front ih =>
    cases word with
    | nil => exact List.nil_prefix
    | cons d word =>
      obtain ⟨rfl, hrest⟩ := List.cons_prefix_cons.mp h
      refine List.cons_prefix_cons.mpr ⟨rfl, ih (fun c hc => ?_) hrest⟩
      exact hword c (List.mem_cons_of_mem d hc)

/-- A word without white space does not reach over a gap. -/
theorem infix_of_gap (hword : ∀ c ∈ word, isSpace c = false) (hgap : Blank gap) {front back : Text}
    (h : word <:+: front ++ (gap ++ back)) : word <:+: front ++ back := by
  induction front with
  | nil =>
    induction gap with
    | nil => exact h
    | cons c gap ih =>
      rcases List.infix_cons_iff.mp h with hhere | hlater
      · exact (prefix_of_gap [] back hword hgap hhere).isInfix
      · exact ih (fun d hd => hgap d (List.mem_cons_of_mem c hd)) hlater
  | cons c front ih =>
    rcases List.infix_cons_iff.mp h with hhere | hlater
    · exact (prefix_of_gap (c :: front) back hword hgap hhere).isInfix
    · exact List.infix_cons_iff.mpr (.inr (ih hlater))

theorem words_ne_nil {c : Char} (h : isSpace c = false) (t : Text) : words (c :: t) ≠ [] := by
  rw [words, if_neg (by simp [h])]
  split
  · exact List.cons_ne_nil _ _
  · exact consHead_ne_nil _ _

/-- White space keeps the words on either side apart. -/
theorem words_append_cons {c : Char} (h : isSpace c = true) (front back : Text) :
    words (front ++ c :: back) = words front ++ words back := by
  induction front with
  | nil =>
    show words (c :: back) = words back
    rw [words, if_pos h]
  | cons d front ih =>
    have hhead : (front ++ c :: back).head?.all isSpace = front.head?.all isSpace := by
      cases front with
      | nil => exact h
      | cons e front => rfl
    rw [List.cons_append, words, words, ih, hhead]
    by_cases hd : isSpace d = true
    · rw [if_pos hd, if_pos hd]
    · rw [if_neg hd, if_neg hd]
      by_cases hlast : front.head?.all isSpace = true
      · rw [if_pos hlast, if_pos hlast]
        rfl
      · rw [if_neg hlast, if_neg hlast]
        obtain ⟨e, hfront, he⟩ : ∃ e, front.head? = some e ∧ isSpace e = false := by
          simpa [Option.all_eq_true] using hlast
        obtain ⟨rest, rfl⟩ := List.head?_eq_some_iff.mp hfront
        obtain ⟨first, more, hwords⟩ := List.exists_cons_of_ne_nil (words_ne_nil he rest)
        rw [hwords]
        rfl

theorem words_blank_append (hgap : Blank gap) (back : Text) : words (gap ++ back) = words back := by
  induction gap with
  | nil => rfl
  | cons c gap ih =>
    rw [List.cons_append, words, if_pos (hgap c List.mem_cons_self)]
    exact ih fun d hd => hgap d (List.mem_cons_of_mem c hd)

/-- A gap that is not empty keeps the words on either side apart. -/
theorem words_gap (hgap : Blank gap) (hne : gap ≠ []) (front back : Text) :
    words (front ++ (gap ++ back)) = words front ++ words back := by
  obtain ⟨c, rest, rfl⟩ := List.exists_cons_of_ne_nil hne
  rw [List.cons_append, words_append_cons (hgap c List.mem_cons_self),
    words_blank_append fun d hd => hgap d (List.mem_cons_of_mem c hd)]

end Text

/-- A selector that is declared without uses has those of a search in the analysis. -/
theorem Analysis.searched_mem_selectors {source path : Text} {options : Options}
    {declared : StyleSelector} (hne : source ≠ [])
    (h : declared ∈ (declaredIn source path options).selectors) (hunused : declared.htmlUsages = []) :
    { declared with
      htmlUsages := declared.findUsages (documentOf source path options)
        (ClassAttribute.findAll (markupOf source)) } ∈ (analyze source path options).selectors := by
  obtain ⟨overrides, statistics, heq⟩ := analyze_eq source path options
  rw [heq]
  cases source with
  | nil => exact absurd rfl hne
  | cons c source =>
    generalize declaredIn (c :: source) path options = analysis at h
    refine List.mem_map.mpr ⟨declared, h, ?_⟩
    rw [hunused, if_pos List.isEmpty_nil]
    rfl

/-! ## A file with one class and a markup -/

/-- The style element of a file with one class. -/
def oneClass : Text := "<style>.n\x7b\x7d</style>"

section OneClass

variable {markup : Text}

theorem elementsFrom_covered (tag before rest : Text) (offset : Nat) :
    elementsFrom tag before.length offset (before ++ rest) =
      elementsFrom tag 0 (offset + before.length) rest := by
  induction before generalizing offset with
  | nil => rfl
  | cons c before ih =>
    rw [List.length_cons, List.cons_append, elementsFrom, ih, Nat.add_assoc,
      Nat.add_comm 1 before.length]

theorem closeTag_infix_of_closable {tag t : Text} (h : Closable tag t) : closeTag tag <:+: t := by
  obtain ⟨inTag, rest, rfl, hclose⟩ := h
  exact hclose.trans ⟨inTag ++ ['>'], [], by simp⟩

theorem spans_style_oneClass (hstyle : ¬ closeTag "style" <:+: markup) :
    (elements "style" (oneClass ++ markup)).spans = [⟨0, 7, 11, 19⟩] := by
  have hopens : opensTag "style" oneClass = true := by decide
  have hat : elementAt "style" 0 oneClass = .ok ⟨0, 7, 11, 19⟩ := by rfl
  obtain ⟨-, text, rest, hsplit, hlength, hall⟩ := elementAt_eq_ok hopens hat
  obtain rfl : rest = [] := by
    have hsame := congrArg List.length hsplit
    have hwhole : oneClass.length = 19 := by decide
    rw [List.length_append] at hsame
    exact List.length_eq_zero_iff.mp (by dsimp only at hlength; omega)
  rw [List.append_nil] at hsplit
  subst hsplit
  obtain ⟨hopens, hat⟩ := hall markup
  have hbehind := elementsFrom_covered "style" (oneClass.drop 1) markup 1
  rw [elements]
  refine (spans_elementsFrom_ok hopens hat).trans (congrArg _ ?_)
  refine (congrArg ElementSearch.spans hbehind).trans ?_
  exact spans_elementsFrom_of_not_closable fun h => hstyle (closeTag_infix_of_closable h)

theorem regions_oneClass (hscript : ¬ closeTag "script" <:+: oneClass ++ markup)
    (hstyle : ¬ closeTag "style" <:+: markup) :
    Regions.ofText (oneClass ++ markup) =
      ⟨[], [StyleRegion.ofSpan (oneClass ++ markup) 0 ⟨0, 7, 11, 19⟩]⟩ := by
  have hnone : (elements "script" (oneClass ++ markup)).spans = [] :=
    spans_elementsFrom_of_not_closable fun h => hscript (closeTag_infix_of_closable h)
  rw [Regions.ofText, hnone, spans_style_oneClass hstyle]
  rfl

/-- What is left of a file without a span at its start. -/
theorem text_ofRemoved_front {source : Text} {stop : Nat} (h : stop < source.length) :
    (Markup.ofRemoved source [⟨0, stop⟩]).text = source.drop stop := by
  have hpieces : Markup.piecesFrom source 0 0 [⟨0, stop⟩] = [(⟨0, stop⟩, source.drop stop)] := by
    simp [Markup.piecesFrom, h]
  rw [Markup.ofRemoved, List.mergeSort_singleton, hpieces]
  exact List.append_nil _

theorem markupOf_oneClass (hscript : ¬ closeTag "script" <:+: oneClass ++ markup)
    (hstyle : ¬ closeTag "style" <:+: markup) (hne : markup ≠ []) :
    markupOf (oneClass ++ markup) = markup := by
  have hlength : (oneClass ++ markup).length = 19 + markup.length := by
    rw [List.length_append]
    rfl
  have hpos := List.length_pos_iff.mpr hne
  rw [markupOf, regions_oneClass hscript hstyle]
  have hpast : 19 < (oneClass ++ markup).length := by omega
  exact text_ofRemoved_front hpast

deriving instance DecidableEq for Declaration, Rule

theorem ofSheet_oneClass (index : LineIndex) (region : StyleRegion) :
    ∃ selector, StyleSelector.ofSheet index region (Sheet.ofText ".n\x7b\x7d") = [selector] ∧
      selector.kind = .cssClass ∧ selector.name = "n" ∧ selector.htmlUsages = [] := by
  have hrules : (Sheet.ofText ".n\x7b\x7d").rules = [⟨".n", ".n", 0, [], [], []⟩] := by
    decide +kernel
  generalize Sheet.ofText ".n\x7b\x7d" = sheet at hrules
  rw [StyleSelector.ofSheet, hrules]
  exact ⟨_, rfl, rfl, rfl, rfl⟩

/-- The class is a selector of the file, with the uses that the markup gives it. -/
theorem exists_selector_oneClass (path : Text) (options : Options)
    (hscript : ¬ closeTag "script" <:+: oneClass ++ markup)
    (hstyle : ¬ closeTag "style" <:+: markup) (hne : markup ≠ []) :
    ∃ found ∈ (analyze (oneClass ++ markup) path options).selectors, found.kind = .cssClass ∧
      found.name = "n" ∧ ∃ document : Document, document.markup.text = markup ∧
        found.htmlUsages =
          StyleSelector.classUsages document (ClassAttribute.findAll markup) "n" := by
  have hmarkup := markupOf_oneClass hscript hstyle hne
  obtain ⟨declared, hdeclared, hkind, hname, hunused⟩ : ∃ declared ∈
      (Analysis.declaredIn (oneClass ++ markup) path options).selectors,
      declared.kind = .cssClass ∧ declared.name = "n" ∧ declared.htmlUsages = [] := by
    obtain ⟨selector, hsheet, hfacts⟩ := ofSheet_oneClass (LineIndex.ofText (oneClass ++ markup))
      (Analysis.placeRegion (LineIndex.ofText (oneClass ++ markup))
        (StyleRegion.ofSpan (oneClass ++ markup) 0 ⟨0, 7, 11, 19⟩))
    refine ⟨selector, ?_, hfacts⟩
    rw [Analysis.declaredIn, Analysis.read, regions_oneClass hscript hstyle]
    refine List.mem_flatMap.mpr ⟨_, List.mem_cons_self, ?_⟩
    show selector ∈ StyleSelector.ofSheet _ _ (Sheet.ofText ".n\x7b\x7d")
    rw [hsheet]
    exact List.mem_singleton_self _
  refine ⟨_, Analysis.searched_mem_selectors (List.cons_ne_nil _ _) hdeclared hunused, hkind, hname,
    Analysis.documentOf (oneClass ++ markup) path options, hmarkup, ?_⟩
  rw [StyleSelector.findUsages, hkind, hname, hmarkup]

end OneClass

/-! ## A markup with one class attribute -/

namespace ClassAttribute

theorem found_assignment? {name : Text} {c stop : Cursor} {found : Nat × Cursor}
    (h : assignment? name c = some (found, stop)) : found = (c.offset, stop) := by
  unfold assignment? at h
  split at h
  · cases h
  · simp only [Option.bind_eq_bind, Option.bind_eq_some_iff] at h
    obtain ⟨named, -, assigned, -, he⟩ := h
    obtain ⟨rfl, rfl⟩ := Prod.mk.inj (Option.some.inj he)
    rfl

theorem stop_ofValue? {offset : Nat} {place : Cursor} {found : ClassAttribute}
    (h : ofValue? offset place = some found) :
    found.offset = offset ∧ place.offset + found.value.length ≤ found.stop := by
  unfold ofValue? at h
  split at h
  · cases h
  · split at h
    · split at h
      · obtain rfl := Option.some.inj h
        exact ⟨rfl, by dsimp only; omega⟩
      · cases h
    · split at h
      · obtain ⟨size, -, rfl⟩ := Option.map_eq_some_iff.mp h
        refine ⟨rfl, ?_⟩
        have hle := List.length_take_le (size + 1) place.after
        dsimp only
        omega
      · cases h

/-- If a markup has one `c` only, that of a class attribute, it has no other class attribute. -/
theorem alone_of_mem_findAll {before rest value : Text} (hvalue : OpensValue rest value)
    (hbefore : 'c' ∉ before) (hrest : 'c' ∉ rest) {found : ClassAttribute}
    (h : found ∈ findAll (before ++ ("class=" ++ rest))) :
    found.value = value ∧ found.offset = before.length ∧
      before.length + 6 + value.length ≤ found.stop := by
  obtain ⟨⟨offset, place⟩, hmem, hfound⟩ := List.mem_filterMap.mp h
  obtain ⟨c, stop, htext, hassigned⟩ := Cursor.mem_collect hmem
  obtain ⟨s₁, s₂, h₁, h₂, hreads⟩ := reads_of_assignment? hassigned
  obtain ⟨rfl, rfl⟩ := Prod.mk.inj (found_assignment? hassigned)
  have hsplit : c.before.reverse ++ 'c' :: ("lass" ++ (s₁ ++ '=' :: (s₂ ++ place.after))) =
      before ++ 'c' :: ("lass" ++ '=' :: rest) := by
    rw [Cursor.text, hreads.after] at htext
    simpa using htext
  have htail : 'c' ∉ ("lass" ++ '=' :: rest : Text) := by simp [hrest]
  obtain ⟨hfront, -, hback⟩ := (List.append_cons_inj_of_notMem hbefore htail).mp hsplit.symm
  have hequals : '=' :: rest = s₁ ++ '=' :: (s₂ ++ place.after) := List.append_cancel_left hback
  obtain rfl : s₁ = [] := by
    cases s₁ with
    | nil => rfl
    | cons d s₁ =>
      have hspace := h₁ d List.mem_cons_self
      rw [← (List.cons.inj hequals).1] at hspace
      exact absurd hspace (by decide)
  have hrest : rest = s₂ ++ place.after := (List.cons.inj hequals).2
  obtain rfl : s₂ = [] := by
    cases s₂ with
    | nil => rfl
    | cons d s₂ =>
      have hink : isSpace d = false := hvalue.head (by rw [hrest]; rfl)
      rw [h₂ d List.mem_cons_self] at hink
      cases hink
  rw [List.nil_append] at hrest
  obtain ⟨other, hother, rfl⟩ := (hrest ▸ hvalue).ofValue? c.offset
  obtain rfl : other = found := Option.some.inj (hother.symm.trans hfound)
  obtain ⟨hoffset, hstop⟩ := stop_ofValue? hfound
  have hbefore : c.offset = before.length := by rw [hfront, List.length_reverse, Cursor.offset]
  have hplace : place.offset = c.offset + 6 := hreads.offset
  exact ⟨rfl, hoffset.trans hbefore, by omega⟩

end ClassAttribute

/-! ## Branches -/

/-- What stands in front of a branch of a conditional expression. -/
inductive BranchMark where
  | question
  | colon

/-- The mark as it is written. -/
def BranchMark.char : BranchMark → Char
  | question => '?'
  | colon => ':'

/-- What a class name is quoted with. -/
inductive NameQuote where
  | single
  | double

/-- The quote as it is written. -/
def NameQuote.char : NameQuote → Char
  | single => '\''
  | double => '"'

/-- The quote around a value that holds the first. -/
def NameQuote.outer : NameQuote → NameQuote
  | single => double
  | double => single

namespace StyleSelector

/-- A value holds a name in quotes as a branch of a conditional expression, behind a gap. -/
def BranchIn (value name : Text) (mark : BranchMark) (quote : NameQuote) (gap : Text) : Prop :=
  mark.char :: (gap ++ quote.char :: (name ++ [quote.char])) <:+: value

/-- A class that is a branch in a class attribute with an expression counts as used, whatever the
file and the options. -/
def UsedByBranch (mark : BranchMark) (quote : NameQuote) (gap : Text) : Prop :=
  ∀ (source path : Text) (options : Options), ∀ found ∈ (analyze source path options).selectors,
    found.kind = .cssClass → ∀ value, ClassAttribute.ValueIn (markupOf source) value → '{' ∈ value →
      BranchIn value found.name mark quote gap → found.htmlUsages ≠ []

/-- The literal that is looked for. -/
def branchLiteral (mark : BranchMark) (quote : NameQuote) (name : Text) : Text :=
  [mark.char, ' '] ++ [quote.char] ++ name ++ [quote.char]

section Branches

variable {mark : BranchMark} {quote : NameQuote} {gap : Text}

theorem composes_of_mention {found : ClassAttribute} {name : Text}
    (h : Text.mentions found.value (branchLiteral mark quote name) = true) (markup : Text) :
    found.composes markup name = true := by
  have hquote : [quote.char] ∈ ([("'" : Text), "\""] : List Text) := by cases quote <;> decide
  have hmark : [mark.char, ' '] ∈ ([("? " : Text), ": "] : List Text) := by cases mark <;> decide
  rw [ClassAttribute.composes]
  refine Bool.or_eq_true_iff.mpr (.inl (Bool.or_eq_true_iff.mpr (.inl ?_)))
  exact List.any_eq_true.mpr ⟨_, hquote, List.any_eq_true.mpr ⟨_, hmark, h⟩⟩

/-- Of a plain name, only the branches are looked for. -/
theorem mention_of_composes {found : ClassAttribute} {markup name : Text} (hdash : '-' ∉ name)
    (hdot : '.' ∉ name) (h : found.composes markup name = true) :
    ∃ mark quote, Text.mentions found.value (branchLiteral mark quote name) = true := by
  have hplain : name.contains '-' = false ∧ name.contains '.' = false := by simp [hdash, hdot]
  simp only [ClassAttribute.composes, hplain.1, hplain.2, Bool.false_and, Bool.or_false] at h
  obtain ⟨q, hq, h⟩ := List.any_eq_true.mp h
  obtain ⟨branch, hbranch, h⟩ := List.any_eq_true.mp h
  obtain ⟨quote, rfl⟩ : ∃ quote : NameQuote, [quote.char] = q := by
    rcases List.mem_pair.mp hq with rfl | rfl
    · exact ⟨.single, rfl⟩
    · exact ⟨.double, rfl⟩
  obtain ⟨mark, rfl⟩ : ∃ mark : BranchMark, [mark.char, ' '] = branch := by
    rcases List.mem_pair.mp hbranch with rfl | rfl
    · exact ⟨.question, rfl⟩
    · exact ⟨.colon, rfl⟩
  exact ⟨mark, quote, h⟩

/-- A class without uses is named by no class attribute. -/
theorem classOffset?_of_classUsages {document : Document} {attributes : List ClassAttribute}
    {name : Text} (h : classUsages document attributes name = []) {found : ClassAttribute}
    (hfound : found ∈ attributes) : found.classOffset? document.markup.text name = none := by
  have hnone := List.map_eq_nil_iff.mp h
  rw [← List.length_eq_zero_iff, List.length_mergeSort, List.length_eq_zero_iff,
    List.append_eq_nil_iff, List.append_eq_nil_iff, List.filterMap_eq_nil_iff] at hnone
  exact Option.map_eq_none_iff.mp (hnone.1.1 found hfound)

/-- With one blank for a gap, a branch is seen. -/
theorem usedByBranch_blank (mark : BranchMark) (quote : NameQuote) :
    UsedByBranch mark quote [' '] := by
  intro source path options found hfound hkind value hvalue hbrace hbranch hunused
  have hsearched := Analysis.mem_selectors_of_unused hfound hunused
  rw [findUsages, hkind] at hsearched
  obtain ⟨holder, hholder, rfl⟩ := hvalue.mem_findAll
  have hoffset := classOffset?_of_classUsages hsearched hholder
  have hdynamic : holder.isDynamic = true := List.contains_iff_mem.mpr hbrace
  have hmention : Text.mentions holder.value (branchLiteral mark quote found.name) = true := by
    refine (Text.mentions_iff_infix _ _).mpr ?_
    simpa [BranchIn, branchLiteral] using hbranch
  rw [ClassAttribute.classOffset?, hdynamic, composes_of_mention hmention] at hoffset
  cases hstatic : holder.staticOffset? found.name with
  | none => simp [hstatic] at hoffset
  | some offset => simp [hstatic] at hoffset

/-! ## A file with one branch -/

/-- The value of a class attribute up to the mark of a branch. -/
def branchFront : BranchMark → Text
  | .question => "\x7bx?"
  | .colon => "\x7bx?y:"

/-- The value behind the quoted branch. -/
def branchRest : BranchMark → Text
  | .question => ":y\x7d"
  | .colon => "\x7d"

/-- A conditional expression with a class as one of its branches. -/
def branchValue (mark : BranchMark) (quote : NameQuote) (gap : Text) : Text :=
  branchFront mark ++ (gap ++ quote.char :: 'n' :: quote.char :: branchRest mark)

/-- An element with the conditional expression for its class. -/
def branchMarkup (mark : BranchMark) (quote : NameQuote) (gap : Text) : Text :=
  "<p " ++ ("class=" ++
    quote.outer.char :: (branchValue mark quote gap ++ quote.outer.char :: "></p>"))

theorem branchMarkup_eq (mark : BranchMark) (quote : NameQuote) (gap : Text) :
    branchMarkup mark quote gap = ("<p class=" ++ quote.outer.char :: branchFront mark) ++
      (gap ++ (quote.char :: 'n' :: quote.char :: branchRest mark ++ quote.outer.char :: "></p>")) := by
  simp [branchMarkup, branchValue]

/-- No word without white space is in the file because of the gap. -/
theorem not_infix_branchMarkup (before : Text) {word : Text} (hword : word.any isSpace = false)
    (hgap : Blank gap) (h : Text.mentions (before ++ branchMarkup mark quote []) word = false) :
    ¬ word <:+: before ++ branchMarkup mark quote gap := by
  intro hinfix
  have hink : ∀ c ∈ word, isSpace c = false := by
    intro c hc
    exact (Bool.not_eq_true _).mp (List.any_eq_false.mp hword c hc)
  rw [Bool.eq_false_iff, ne_eq, Text.mentions_iff_infix, branchMarkup_eq, ← List.append_assoc] at h
  rw [branchMarkup_eq, ← List.append_assoc] at hinfix
  exact h (Text.infix_of_gap hink hgap hinfix)

theorem isSpace_char (quote : NameQuote) : isSpace quote.char = false := by cases quote <;> decide

theorem opensValue_branch (mark : BranchMark) (quote : NameQuote) (hgap : Blank gap) :
    ClassAttribute.OpensValue
      (quote.outer.char :: (branchValue mark quote gap ++ quote.outer.char :: "></p>"))
      (branchValue mark quote gap) := by
  refine .inl ⟨quote.outer.char, "></p>", ?_, ?_, rfl⟩
  · cases quote with
    | single => exact .inl rfl
    | double => exact .inr rfl
  · have hfixed : quote.outer.char ∉ branchFront mark ++ branchValue mark quote [] := by
      cases mark <;> cases quote <;> decide
    have hblank : quote.outer.char ∉ gap := hgap.not_mem (isSpace_char _)
    simp only [branchValue, List.mem_append, List.nil_append, not_or] at hfixed ⊢
    exact ⟨hfixed.1, hblank, hfixed.2.2⟩

/-- The value holds one `n`, which is the class. -/
theorem branchValue_eq (mark : BranchMark) (quote : NameQuote) (hgap : Blank gap) :
    branchValue mark quote gap =
        (branchFront mark ++ gap ++ [quote.char]) ++ 'n' :: (quote.char :: branchRest mark) ∧
      'n' ∉ branchFront mark ++ gap ++ [quote.char] ∧ 'n' ∉ quote.char :: branchRest mark := by
  have hblank : 'n' ∉ gap := hgap.not_mem (by decide)
  have hfixed : 'n' ∉ branchFront mark ++ [quote.char] := by cases mark <;> cases quote <;> decide
  refine ⟨by simp [branchValue], ?_, by cases mark <;> cases quote <;> decide⟩
  simp only [List.mem_append, not_or] at hfixed ⊢
  exact ⟨⟨hfixed.1, hblank⟩, hfixed.2⟩

/-- A literal that is looked for is in the value only if the gap is one blank. -/
theorem gap_of_mention (hgap : Blank gap) {m : BranchMark} {q : NameQuote}
    (h : branchLiteral m q "n" <:+: branchValue mark quote gap) : gap = [' '] := by
  obtain ⟨before, after, hsplit⟩ := h
  obtain ⟨hvalue, hbefore, hafter⟩ := branchValue_eq mark quote hgap
  have hsame : (branchFront mark ++ gap ++ [quote.char]) ++ 'n' :: (quote.char :: branchRest mark) =
      (before ++ [m.char] ++ [' '] ++ [q.char]) ++ 'n' :: (q.char :: after) := by
    rw [← hvalue, ← hsplit]
    simp [branchLiteral]
  obtain ⟨hmatch, -, -⟩ := (List.append_cons_inj_of_notMem hbefore hafter).mp hsame
  obtain ⟨hmatch, -⟩ := List.append_inj' hmatch rfl
  rcases List.eq_nil_or_concat gap with rfl | ⟨gap, d, rfl⟩
  · -- the front would end in a blank
    have hlast : (branchFront mark).getLast? ≠ some ' ' := by cases mark <;> decide
    rw [List.append_nil] at hmatch
    rw [hmatch, List.getLast?_concat] at hlast
    exact absurd rfl hlast
  · rw [List.concat_eq_append, ← List.append_assoc] at hmatch
    obtain ⟨hmatch, hd⟩ := List.append_inj' hmatch rfl
    rcases List.eq_nil_or_concat gap with rfl | ⟨gap, e, rfl⟩
    · exact hd
    · -- a second blank of the gap would be the mark
      rw [List.concat_eq_append, ← List.append_assoc] at hmatch
      obtain rfl : e = m.char := (List.cons.inj (List.append_inj' hmatch rfl).2).1
      have hspace : isSpace m.char = true := hgap m.char (by simp)
      have hink : isSpace m.char = false := by cases m <;> decide
      rw [hink] at hspace
      cases hspace

theorem not_mem_words_branch (mark : BranchMark) (quote : NameQuote) (hgap : Blank gap) :
    ['n'] ∉ Text.words (branchValue mark quote gap) := by
  by_cases hempty : gap = []
  · rw [hempty]
    cases mark <;> cases quote <;> decide
  · rw [branchValue, Text.words_gap hgap hempty, List.mem_append, not_or]
    constructor
    · cases mark <;> decide
    · cases mark <;> cases quote <;> decide

/-- The class attribute of the file does not name the class. -/
theorem classOffset?_branch (hgap : Blank gap) (hne : gap ≠ [' ']) {found : ClassAttribute}
    (hvalue : found.value = branchValue mark quote gap) (markup : Text) :
    found.classOffset? markup "n" = none := by
  have hstatic : found.staticOffset? "n" = none := by
    have hparts : Text.splitOn '.' ("n" : Text) = [['n']] := by decide
    have hword : (Text.words found.value).contains ['n'] = false := by
      rw [hvalue, Bool.eq_false_iff, ne_eq, List.contains_iff_mem]
      exact not_mem_words_branch mark quote hgap
    simp only [ClassAttribute.staticOffset?, hparts, List.all_cons, hword, Bool.false_and,
      Bool.false_eq_true, if_false]
  have hcomposes : found.composes markup "n" = false := by
    rw [Bool.eq_false_iff]
    intro hcomposes
    obtain ⟨m, q, hmention⟩ := mention_of_composes (by decide) (by decide) hcomposes
    rw [Text.mentions_iff_infix, hvalue] at hmention
    exact hne (gap_of_mention hgap hmention)
  rw [ClassAttribute.classOffset?, hstatic, hcomposes, Bool.and_false]
  rfl

/-- The class attribute of the file. -/
structure HoldsBranch (mark : BranchMark) (quote : NameQuote) (gap : Text) (found : ClassAttribute) :
    Prop where
  value : found.value = branchValue mark quote gap
  offset : found.offset = 3
  stop : 9 + (branchValue mark quote gap).length ≤ found.stop

theorem holdsBranch_of_mem_findAll (hgap : Blank gap) {found : ClassAttribute}
    (h : found ∈ ClassAttribute.findAll (branchMarkup mark quote gap)) :
    HoldsBranch mark quote gap found := by
  have hrest : 'c' ∉
      quote.outer.char :: (branchValue mark quote gap ++ quote.outer.char :: "></p>") := by
    have hblank : 'c' ∉ gap := hgap.not_mem (by decide)
    have hfixed : 'c' ∉
        quote.outer.char :: (branchValue mark quote [] ++ quote.outer.char :: "></p>") := by
      cases mark <;> cases quote <;> decide
    simp only [branchValue, List.mem_cons, List.mem_append, List.nil_append, not_or] at hfixed ⊢
    exact ⟨hfixed.1, ⟨hfixed.2.1.1, hblank, hfixed.2.1.2⟩, hfixed.2.2⟩
  obtain ⟨hvalue, hoffset, hstop⟩ :=
    ClassAttribute.alone_of_mem_findAll (opensValue_branch mark quote hgap) (by decide) hrest h
  exact ⟨hvalue, hoffset, hstop⟩

theorem valueIn_branchMarkup (mark : BranchMark) (quote : NameQuote) (hgap : Blank gap) :
    ClassAttribute.ValueIn (branchMarkup mark quote gap) (branchValue mark quote gap) := by
  refine ⟨"<p ", [], [], _, rfl, blank_nil, blank_nil, ?_, opensValue_branch mark quote hgap⟩
  intro c hc
  obtain rfl := Option.some.inj hc
  decide

/-- The quoted name stands inside the class attribute. -/
theorem quotedOffsets_branch (mark : BranchMark) (quote : NameQuote) (hgap : Blank gap) :
    quotedOffsets (ClassAttribute.findAll (branchMarkup mark quote gap))
      (branchMarkup mark quote gap) "n" = [] := by
  obtain ⟨found, hfound, -⟩ := (valueIn_branchMarkup mark quote hgap).mem_findAll
  obtain ⟨-, hoffset, hstop⟩ := holdsBranch_of_mem_findAll hgap hfound
  obtain ⟨hvalue, hbefore, hafter⟩ := branchValue_eq mark quote hgap
  have houter : 'n' ≠ quote.outer.char := by cases quote <;> decide
  have hleft : 'n' ∉
      "<p class=" ++ quote.outer.char :: (branchFront mark ++ gap ++ [quote.char]) := by
    refine List.not_mem_append ?_ (List.not_mem_cons_of_ne_of_not_mem houter hbefore)
    decide
  have hright : 'n' ∉ (quote.char :: branchRest mark) ++ quote.outer.char :: "></p>" := by
    refine List.not_mem_append hafter (List.not_mem_cons_of_ne_of_not_mem houter ?_)
    decide
  refine List.flatMap_eq_nil_iff.mpr fun q hq => List.filter_eq_nil_iff.mpr fun hit hhit => ?_
  obtain ⟨-, before, after, hsplit, rfl⟩ := Text.mem_occurrences.mp hhit
  have hsame : ("<p class=" ++ quote.outer.char :: (branchFront mark ++ gap ++ [quote.char])) ++
      'n' :: ((quote.char :: branchRest mark) ++ quote.outer.char :: "></p>") =
        (before ++ q) ++ 'n' :: (q ++ after) := by
    rw [branchMarkup, hvalue] at hsplit
    simpa using hsplit
  have hmatch := ((List.append_cons_inj_of_notMem hleft hright).mp hsame).1
  have hcount : 10 + (branchFront mark).length + gap.length + 1 = before.length + q.length := by
    have hlengths := congrArg List.length hmatch
    simp at hlengths
    omega
  have hquote : q.length = 1 := by
    rcases List.mem_pair.mp hq with rfl | rfl <;> rfl
  have hsize : (branchValue mark quote gap).length =
      (branchFront mark).length + (gap.length + ((branchRest mark).length + 3)) := by
    rw [branchValue, List.length_append, List.length_append]
    rfl
  rw [Bool.not_eq_true', Bool.not_eq_false, List.any_eq_true]
  refine ⟨found, hfound, ?_⟩
  rw [Bool.and_eq_true, decide_eq_true_eq, decide_eq_true_eq]
  omega

/-- The branch is no use of the class. -/
theorem classUsages_branch (hgap : Blank gap) (hne : gap ≠ [' ']) {document : Document}
    (hmarkup : document.markup.text = branchMarkup mark quote gap) :
    classUsages document (ClassAttribute.findAll (branchMarkup mark quote gap)) "n" = [] := by
  have hattributes : (ClassAttribute.findAll (branchMarkup mark quote gap)).filterMap
      (fun found => (found.classOffset? (branchMarkup mark quote gap) "n").map
        fun offset => (offset, ("class" : Text))) = [] := by
    refine List.filterMap_eq_nil_iff.mpr fun found hfound => ?_
    rw [classOffset?_branch hgap hne (holdsBranch_of_mem_findAll hgap hfound).value]
    rfl
  have hdirectives : directiveOffsets (branchMarkup mark quote gap) "n" = [] := by
    refine List.filter_eq_nil_iff.mpr fun hit hhit => ?_
    obtain ⟨-, before, after, hsplit, -⟩ := Text.mem_occurrences.mp hhit
    have hfixed : Text.mentions (branchMarkup mark quote []) "class:n" = false := by
      cases mark <;> cases quote <;> decide
    refine absurd ?_ (not_infix_branchMarkup [] (by decide) hgap hfixed)
    exact ⟨before, after, hsplit.symm⟩
  simp only [classUsages, hmarkup, hattributes, hdirectives, quotedOffsets_branch mark quote hgap]
  exact List.map_eq_nil_iff.mpr List.mergeSort_nil

theorem branchIn_branchValue (mark : BranchMark) (quote : NameQuote) (gap : Text) :
    BranchIn (branchValue mark quote gap) "n" mark quote gap := by
  obtain ⟨front, hfront⟩ : ∃ front, branchFront mark = front ++ [mark.char] := by
    cases mark with
    | question => exact ⟨"\x7bx", rfl⟩
    | colon => exact ⟨"\x7bx?y", rfl⟩
  refine ⟨front, branchRest mark, ?_⟩
  simp [branchValue, hfront]

/-- With any gap but one blank, a file has a branch that is not seen. -/
theorem gap_of_usedByBranch (hgap : Blank gap) (h : UsedByBranch mark quote gap) : gap = [' '] := by
  by_contra hne
  have hscript : ¬ closeTag "script" <:+: oneClass ++ branchMarkup mark quote gap := by
    refine not_infix_branchMarkup oneClass (by decide) hgap ?_
    cases mark <;> cases quote <;> decide
  have hstyle : ¬ closeTag "style" <:+: branchMarkup mark quote gap := by
    refine not_infix_branchMarkup [] (by decide) hgap ?_
    cases mark <;> cases quote <;> decide
  have hmarkup := markupOf_oneClass hscript hstyle (List.cons_ne_nil _ _)
  obtain ⟨found, hfound, hkind, hname, document, htext, husages⟩ :=
    exists_selector_oneClass "Component.svelte" {} hscript hstyle (List.cons_ne_nil _ _)
  refine h _ _ _ found hfound hkind (branchValue mark quote gap) ?_ ?_ ?_ ?_
  · rw [hmarkup]
    exact valueIn_branchMarkup mark quote hgap
  · cases mark <;> exact List.mem_cons_self
  · rw [hname]
    exact branchIn_branchValue mark quote gap
  · rw [husages]
    exact classUsages_branch hgap hne htext

end Branches

/-- Of all gaps between the mark and the quote of a branch, one blank is the only one with which the
class counts as used. -/
theorem usedByBranch_iff (mark : BranchMark) (quote : NameQuote) {gap : Text} (hgap : Blank gap) :
    UsedByBranch mark quote gap ↔ gap = [' '] := by
  constructor
  · exact gap_of_usedByBranch hgap
  · rintro rfl
    exact usedByBranch_blank mark quote

theorem usedByBranch_iff_tight :
    UsedByBranch .question .single [' '] ∧ ¬ UsedByBranch .colon .double [] := by
  constructor
  · have hblank : Blank [' '] := List.forall_mem_singleton.mpr (by decide)
    exact (usedByBranch_iff .question .single hblank).mpr rfl
  · intro h
    have hblank : Blank [] := fun _ hmem => (List.not_mem_nil hmem).elim
    cases (usedByBranch_iff .colon .double hblank).mp h

/-- A class without uses that is a branch right behind the mark. -/
theorem unused_tightBranch :
    let source : Text := "<style>.n\x7bcolor:red\x7d</style><p class=\x7bx?'n':''\x7d></p>"
    ClassAttribute.ValueIn (markupOf source) "\x7bx?'n':''\x7d" ∧
      BranchIn "\x7bx?'n':''\x7d" "n" .question .single [] ∧
      (analyze source "Component.svelte").selectors.map
        (fun found => (found.kind, found.name, found.htmlUsages.isEmpty)) =
          [(.cssClass, "n".toList, true)] := by
  intro source
  have hmarkup : markupOf source = "<p class=\x7bx?'n':''\x7d></p>" := by decide +kernel
  have hblank : Blank [] := fun _ h => (List.not_mem_nil h).elim
  refine ⟨?_, ⟨"\x7bx", ":''\x7d", rfl⟩, by decide +kernel⟩
  rw [hmarkup]
  refine ⟨"<p ", [], [], "\x7bx?'n':''\x7d></p>", rfl, hblank, hblank, ?_, .inr ?_⟩
  · intro c hc
    obtain rfl := Option.some.inj hc
    decide
  · exact ⟨"x?'n':''\x7d", "></p>", rfl, rfl, by decide⟩

end StyleSelector

end ComponentAudit
