import ComponentAudit.Proofs.Style.Nesting
import ComponentAudit.Proofs.Style.RoundTrip

/-! # The outline of a style text

The blocks of a style text with the headers around them. Recursive descent meets each of them once:
the blocks of rules are the rules of the sheet, and of the at-rules around a rule the nearest
conditional one is its condition. What is declared stands in front of, between and behind the blocks
that are passed over, never inside them, and no two declarations start at the same offset. -/

namespace ComponentAudit

namespace Sheet

open Style (BlockKind)

/-! ## Blocks -/

/-- A block of a style text: where its header, its brace and its end stand, the header with its white
space squeezed, and the headers of the blocks around it, nearest first. -/
structure Block where
  start : Nat
  opening : Nat
  close : Nat
  title : Text
  around : List Text

/-- The conditional at-rules among some headers. -/
def conditionsAmong (titles : List Text) : List Text :=
  titles.filter fun title => BlockKind.conditional.announcedBy title

namespace Block

/-- Whether the block is that of a rule. -/
def isRule (block : Block) : Bool := !block.title.isEmpty && BlockKind.rule.announcedBy block.title

/-- Whether the block is that of an at-rule without selectors. -/
def isSkipped (block : Block) : Bool := BlockKind.skipped.announcedBy block.title

/-- The headers of the conditional at-rules around the block, nearest first. -/
def conditions (block : Block) : List Text := conditionsAmong block.around

/-- An offset lies between the brace of the block and its end. -/
def Holds (block : Block) (offset : Nat) : Prop := block.opening < offset ∧ offset < block.close

end Block

/-- Whether a block with a header is passed over without a look inside. -/
def isPassedOver (title : Text) : Bool := title.isEmpty || BlockKind.skipped.announcedBy title

section Outline

variable (masked : Text)

/-- The blocks of a masked text between two offsets, each before those inside it. -/
def outline (position stop : Nat) (around : List Text) : List Block :=
  let start := inkFrom masked position stop
  if hstart : stop ≤ start then []
  else
    let delimiter := (nextDelimiter masked start stop).1
    if hopen : (nextDelimiter masked start stop).2 = some '{' then
      let close := blockEnd masked delimiter stop
      let title := Text.squeeze (masked.slice start delimiter)
      let block : Block := ⟨start, delimiter, close, title, around⟩
      if isPassedOver title then block :: outline (close + 1) stop around
      else
        block :: (outline (delimiter + 1) close (title :: around) ++ outline (close + 1) stop around)
    else outline (delimiter + 1) stop around
termination_by stop - position
decreasing_by
  all_goals
    have hink : position ≤ start := Nat.le_add_right _ _
    have hle : start ≤ delimiter := Nat.le_add_right _ _
  · change stop - (close + 1) < stop - position
    have hclose : delimiter < close := lt_blockEnd masked (nextDelimiter_lt hopen).2
    omega
  · change close - (delimiter + 1) < stop - position
    have hclose : close ≤ stop := blockEnd_le masked delimiter stop
    omega
  · change stop - (close + 1) < stop - position
    have hclose : delimiter < close := lt_blockEnd masked (nextDelimiter_lt hopen).2
    omega
  · change stop - (delimiter + 1) < stop - position
    omega

end Outline

/-! ## What descent meets -/

/-- A block stands between two offsets. -/
structure Block.Within (block : Block) (position stop : Nat) : Prop where
  start : position ≤ block.start
  opening : block.start ≤ block.opening
  close : block.opening < block.close
  stop : block.close ≤ stop

/-- The condition and the sheet with which the inside of a block is read: that of an at-rule adds no
rule, any other block adds its own. -/
inductive Entry (block : Block) (context : Text) (sheet : Sheet) : Text → Sheet → Prop
  | atRule (hat : block.title.head? = some '@') :
      Entry block context sheet
        (if BlockKind.conditional.announcedBy block.title then block.title else context) sheet
  | rule {rule : Rule} (hat : block.title.head? ≠ some '@') (hoffset : rule.offset = block.start)
      (htitle : rule.selectorText = block.title) (hcontext : rule.context = context)
      (hempty : rule.declarations = []) : Entry block context sheet context (sheet.addRule rule)

/-- What recursive descent can do with the text between two offsets, under a condition: the blocks that
it meets, and the sheet before and after. -/
inductive Reading : (position stop : Nat) → (context : Text) → (around : List Text) → Sheet →
    List Block → Sheet → Prop
  | done {position stop context around sheet} : Reading position stop context around sheet [] sheet
  | segment {position delimiter stop context around sheet blocks result} {frame : Frame}
      {header : Text} (hbefore : position ≤ frame.offset)
      (hheader : frame.offset + header.length ≤ delimiter) (hstop : delimiter ≤ stop)
      (rest : Reading (delimiter + 1) stop context around (sheet.addSegment frame header) blocks
        result) :
      Reading position stop context around sheet blocks result
  | passed {position stop context around sheet behind result} {block : Block}
      (hplace : block.Within position stop) (hpassed : isPassedOver block.title = true)
      (rest : Reading (block.close + 1) stop context around sheet behind result) :
      Reading position stop context around sheet (block :: behind) result
  | entered {position stop context around sheet nested opened inside read behind result}
      {block : Block} (hplace : block.Within position stop) (haround : block.around = around)
      (hentered : isPassedOver block.title = false) (hentry : Entry block context sheet nested opened)
      (inner : Reading (block.opening + 1) block.close nested (block.title :: around) opened inside
        read)
      (rest : Reading (block.close + 1) stop context around read behind result) :
      Reading position stop context around sheet (block :: (inside ++ behind)) result

/-- Only the title of an at-rule announces anything but a rule. -/
theorem announcedBy_of_head {title : Text} (h : title.head? ≠ some '@') :
    BlockKind.skipped.announcedBy title = false ∧
      BlockKind.conditional.announcedBy title = false := by
  have hname : atRuleName title = [] := by
    by_contra hne
    exact h (Style.head_of_atRuleName hne)
  simp only [BlockKind.announcedBy, hname]
  exact ⟨by decide, by decide⟩

theorem head_of_skipped {title : Text} (h : BlockKind.skipped.announcedBy title = true) :
    title.head? = some '@' := by
  by_contra hat
  rw [(announcedBy_of_head hat).1] at h
  cases h

/-- A block that is entered is that of a rule unless its header announces an at-rule. -/
theorem Block.isRule_of_entered {block : Block} (h : isPassedOver block.title = false) :
    block.isRule = (block.title.head? != some '@') := by
  rw [isRule, (Bool.or_eq_false_iff.mp h).1, BlockKind.announcedBy, Bool.not_false, Bool.true_and]

theorem Block.isRule_of_passed {block : Block} (h : isPassedOver block.title = true) :
    block.isRule = false := by
  rcases Bool.or_eq_true_iff.mp h with hempty | hskipped
  · rw [isRule, hempty, Bool.not_true, Bool.false_and]
  · rw [isRule, BlockKind.announcedBy, head_of_skipped hskipped, bne_self_eq_false, Bool.and_false]

theorem nextDelimiter_le {masked : Text} {start stop : Nat} (h : start ≤ stop) :
    start ≤ (nextDelimiter masked start stop).1 ∧ (nextDelimiter masked start stop).1 ≤ stop := by
  have happend := congrArg List.length (segmentFrom_append_stop none 0 (masked.slice start stop))
  rw [List.length_append] at happend
  have hle : (masked.slice start stop).length ≤ stop - start := List.length_take_le _ _
  change start ≤ start + (segmentFrom none 0 (masked.slice start stop)).1.length ∧
    start + (segmentFrom none 0 (masked.slice start stop)).1.length ≤ stop
  omega

theorem reading_descend {masked : Text} (position stop : Nat) (context : Text) (enclosing : List Nat)
    (around : List Text) (sheet : Sheet) :
    Reading position stop context around sheet (outline masked position stop around)
      (descend masked position stop context enclosing sheet) := by
  induction hlength : stop - position using Nat.strongRecOn
    generalizing position stop context enclosing around sheet with
  | ind length ih =>
    rw [outline, descend]
    have hink : position ≤ inkFrom masked position stop := Nat.le_add_right _ _
    generalize inkFrom masked position stop = start at hink
    dsimp only
    by_cases hend : stop ≤ start
    · rw [dif_pos hend, dif_pos hend]
      exact .done
    rw [dif_neg hend, dif_neg hend]
    have hnext := @nextDelimiter_le masked start stop (by omega)
    have hlt := @nextDelimiter_lt masked start stop '{'
    generalize nextDelimiter masked start stop = next at hnext hlt
    obtain ⟨delimiter, ending⟩ := next
    dsimp only at hnext hlt ⊢
    have hheader : (masked.slice start delimiter).length ≤ delimiter - start := List.length_take_le _ _
    by_cases hopen : ending = some '{'
    · rw [dif_pos hopen, dif_pos hopen]
      have hclose := lt_blockEnd masked (hlt hopen).2
      have hstop := blockEnd_le masked delimiter stop
      generalize blockEnd masked delimiter stop = close at hclose hstop
      generalize masked.slice start delimiter = header
      generalize htitle : Text.squeeze header = title
      have hplace : Block.Within ⟨start, delimiter, close, title, around⟩ position stop :=
        ⟨hink, hnext.1, hclose, hstop⟩
      have hbehind := fun sheet => ih (stop - (close + 1)) (by omega) (close + 1) stop context
        enclosing around sheet rfl
      have hinside := fun context enclosing sheet => ih (close - (delimiter + 1)) (by omega)
        (delimiter + 1) close context enclosing (title :: around) sheet rfl
      by_cases hpassed : isPassedOver title = true
      · rw [if_pos hpassed]
        refine .passed hplace hpassed ?_
        rcases Bool.or_eq_true_iff.mp hpassed with hempty | hskipped
        · rw [if_pos hempty]
          exact hbehind sheet
        · have hat := head_of_skipped hskipped
          change skippedAtRules.contains (atRuleName title) = true at hskipped
          rw [if_pos (beq_iff_eq.mpr hat), if_pos hskipped, ite_self]
          exact hbehind sheet
      · rw [if_neg hpassed]
        rw [Bool.not_eq_true] at hpassed
        obtain ⟨hempty, hskipped⟩ := Bool.or_eq_false_iff.mp hpassed
        change skippedAtRules.contains (atRuleName title) = false at hskipped
        rw [if_neg (ne_true_of_eq_false hempty)]
        by_cases hat : title.head? = some '@'
        · rw [if_pos (beq_iff_eq.mpr hat), if_neg (ne_true_of_eq_false hskipped)]
          exact .entered hplace rfl hpassed (.atRule hat) (hinside _ _ _) (hbehind _)
        · rw [if_neg (by simpa using hat)]
          exact .entered hplace rfl hpassed (.rule hat rfl rfl rfl rfl) (hinside _ _ _) (hbehind _)
    · rw [dif_neg hopen, dif_neg hopen]
      refine .segment hink ?_ hnext.2 (ih _ (by omega) (delimiter + 1) stop context enclosing around _ rfl)
      dsimp only
      omega

/-! ## Rules and their conditions -/

/-- Where the rules of a sheet start, with their selectors and their conditions. -/
def headings (sheet : Sheet) : List (Nat × Text × Text) :=
  sheet.rules.map fun rule => (rule.offset, rule.selectorText, rule.context)

/-- Where the rule of a block starts, its selectors and the nearest condition around it. -/
def Block.heading (block : Block) : Nat × Text × Text :=
  (block.start, block.title, block.conditions.headD [])

theorem headings_addSegment (sheet : Sheet) (frame : Frame) (segment : Text) :
    (sheet.addSegment frame segment).headings = sheet.headings := by
  rcases addSegment_cases sheet frame segment with ⟨statements, heq⟩ |
    ⟨parent, declaration, -, -, -, heq⟩
  · rw [heq]
    rfl
  · rw [heq]
    refine List.ext_getElem? fun place => ?_
    simp only [headings, addDeclaration, List.getElem?_map, List.getElem?_modify]
    cases sheet.rules[place]? with
    | none => rfl
    | some rule =>
      change some _ = some _
      split <;> rfl

theorem headings_addRule (sheet : Sheet) (rule : Rule) :
    (sheet.addRule rule).headings =
      sheet.headings ++ [(rule.offset, rule.selectorText, rule.context)] :=
  List.map_append

section Reading

variable {position stop : Nat} {context : Text} {around : List Text} {sheet result : Sheet}
  {blocks : List Block}

/-- The rules that descent adds are those of the blocks that it meets. -/
theorem Reading.headings_eq (h : Reading position stop context around sheet blocks result)
    (hcontext : context = (conditionsAmong around).headD []) :
    result.headings = sheet.headings ++ (blocks.filter (·.isRule)).map Block.heading := by
  induction h with
  | done => simp
  | segment _ _ _ _ ih => rw [ih hcontext, headings_addSegment]
  | passed _ hpassed _ ih =>
    rw [ih hcontext, List.filter_cons_of_neg (by simp [Block.isRule_of_passed hpassed])]
  | @entered _ _ context around _ _ _ _ _ _ _ block _ haround hentered hentry _ _ ihinner ihrest =>
    have hrule := Block.isRule_of_entered hentered
    cases hentry with
    | atRule hat =>
      have hnested : (if BlockKind.conditional.announcedBy block.title then block.title else context) =
          (conditionsAmong (block.title :: around)).headD [] := by
        rw [conditionsAmong, List.filter_cons]
        split
        · rfl
        · exact hcontext
      rw [ihrest hcontext, ihinner hnested, List.filter_cons_of_neg (by simp [hrule, hat]),
        List.filter_append, List.map_append, List.append_assoc]
    | rule hat hoffset htitle hcondition =>
      have hnested : context = (conditionsAmong (block.title :: around)).headD [] := by
        rw [conditionsAmong, List.filter_cons_of_neg (by simp [announcedBy_of_head hat])]
        exact hcontext
      have hheading : block.heading = (block.start, block.title, context) := by
        rw [Block.heading, Block.conditions, haround, hcontext]
      rw [ihrest hcontext, ihinner hnested, headings_addRule, hoffset, htitle, hcondition,
        List.filter_cons_of_pos (by simp [hrule, hat]), List.filter_append, List.map_cons,
        List.map_append, hheading, List.append_assoc, List.append_assoc]
      rfl

/-! ## Declarations and skipped blocks -/

/-- The offsets of all declarations of a sheet. -/
def declaredOffsets (sheet : Sheet) : List Nat :=
  sheet.rules.flatMap fun rule => rule.declarations.map (·.offset)

/-- Offsets between two others, in order and inside no block that is skipped. -/
structure Added (position stop : Nat) (blocks : List Block) (offsets : List Nat) : Prop where
  ordered : offsets.Pairwise (· < ·)
  inside : ∀ offset ∈ offsets, position ≤ offset ∧ offset < stop
  unskipped : ∀ offset ∈ offsets, ∀ block ∈ blocks, block.isSkipped = true → ¬ block.Holds offset

theorem declaredOffsets_addRule {rule : Rule} (hempty : rule.declarations = []) :
    (sheet.addRule rule).declaredOffsets = sheet.declaredOffsets := by
  simp [declaredOffsets, addRule, hempty]

/-- A declaration is added once, if there is a rule to take it. -/
theorem declaredOffsets_addDeclaration (sheet : Sheet) (parent : Nat) (declaration : Declaration) :
    ∃ added, added.Sublist [declaration.offset] ∧
      (sheet.addDeclaration parent declaration).declaredOffsets.Perm
        (sheet.declaredOffsets ++ added) := by
  simp only [declaredOffsets, addDeclaration]
  generalize sheet.rules = rules
  induction rules generalizing parent with
  | nil => exact ⟨[], List.nil_sublist _, by simp⟩
  | cons rule rules ih =>
    cases parent with
    | zero =>
      refine ⟨[declaration.offset], .refl _, ?_⟩
      simp only [List.modify_zero_cons, List.flatMap_cons, List.map_append, List.map_cons,
        List.map_nil, List.append_assoc]
      exact List.perm_append_comm.append_left _
    | succ parent =>
      obtain ⟨added, hadded, hperm⟩ := ih parent
      refine ⟨added, hadded, ?_⟩
      simp only [List.modify_succ_cons, List.flatMap_cons, List.append_assoc]
      exact hperm.append_left _

theorem declaredOffsets_addSegment (sheet : Sheet) (frame : Frame) (segment : Text) :
    ∃ added : List Nat, added.Pairwise (· < ·) ∧
      (∀ offset ∈ added, frame.offset ≤ offset ∧ offset < frame.offset + segment.length) ∧
      (sheet.addSegment frame segment).declaredOffsets.Perm (sheet.declaredOffsets ++ added) := by
  rcases addSegment_cases sheet frame segment with ⟨statements, heq⟩ |
    ⟨parent, declaration, -, hle, hlt, heq⟩
  · refine ⟨[], .nil, fun _ h => (List.not_mem_nil h).elim, ?_⟩
    rw [heq, List.append_nil]
    exact .refl _
  · obtain ⟨added, hadded, hperm⟩ := declaredOffsets_addDeclaration sheet parent declaration
    refine ⟨added, (List.pairwise_singleton _ _).sublist hadded, fun offset hmem => ?_, heq ▸ hperm⟩
    rw [List.mem_singleton.mp (hadded.subset hmem)]
    exact ⟨hle, hlt⟩

theorem Reading.within (h : Reading position stop context around sheet blocks result) :
    ∀ block ∈ blocks, position ≤ block.opening ∧ block.close ≤ stop := by
  induction h with
  | done => exact fun _ h => (List.not_mem_nil h).elim
  | segment hbefore hheader hstop _ ih =>
    intro block hmem
    have := ih block hmem
    omega
  | passed hplace _ _ ih =>
    obtain ⟨hstart, hopening, hclose, hstop⟩ := hplace
    refine List.forall_mem_cons.mpr ⟨by omega, fun block hmem => ?_⟩
    have := ih block hmem
    omega
  | entered hplace _ _ _ _ _ ihinner ihrest =>
    obtain ⟨hstart, hopening, hclose, hstop⟩ := hplace
    refine List.forall_mem_cons.mpr ⟨by omega, List.forall_mem_append.mpr ⟨fun block hmem => ?_,
      fun block hmem => ?_⟩⟩
    · have := ihinner block hmem
      omega
    · have := ihrest block hmem
      omega

theorem Entry.declaredOffsets_eq {block : Block} {nested : Text} {opened : Sheet}
    (h : Entry block context sheet nested opened) : opened.declaredOffsets = sheet.declaredOffsets := by
  cases h with
  | atRule => rfl
  | rule _ _ _ _ hempty => exact declaredOffsets_addRule hempty

/-- What stands up to an offset, and then what stands behind it. -/
theorem Added.append {middle : Nat} {before behind : List Block} {front back : List Nat}
    (hfront : Added position middle before front) (hback : Added (middle + 1) stop behind back)
    (hposition : position ≤ middle) (hstop : middle ≤ stop)
    (hbefore : ∀ block ∈ before, block.close ≤ middle)
    (hbehind : ∀ block ∈ behind, middle + 1 ≤ block.opening) :
    Added position stop (before ++ behind) (front ++ back) where
  ordered := by
    refine List.pairwise_append.mpr ⟨hfront.ordered, hback.ordered, fun a ha b hb => ?_⟩
    have := hfront.inside a ha
    have := hback.inside b hb
    omega
  inside := by
    refine List.forall_mem_append.mpr ⟨fun a ha => ?_, fun b hb => ?_⟩
    · have := hfront.inside a ha
      omega
    · have := hback.inside b hb
      omega
  unskipped := by
    refine List.forall_mem_append.mpr ⟨fun a ha => List.forall_mem_append.mpr
      ⟨hfront.unskipped a ha, fun block hblock _ hholds => ?_⟩, fun b hb =>
        List.forall_mem_append.mpr ⟨fun block hblock _ hholds => ?_, hback.unskipped b hb⟩⟩
    · have := hfront.inside a ha
      have := hbehind block hblock
      have := hholds.1
      omega
    · have := hback.inside b hb
      have := hbefore block hblock
      have := hholds.2
      omega

/-- What descent adds stands between the two offsets, one behind the other. -/
theorem Reading.exists_added (h : Reading position stop context around sheet blocks result) :
    ∃ added, Added position stop blocks added ∧
      result.declaredOffsets.Perm (sheet.declaredOffsets ++ added) := by
  have hnone : ∀ {P : Nat → Prop}, ∀ offset ∈ ([] : List Nat), P offset :=
    fun _ h => (List.not_mem_nil h).elim
  induction h with
  | done => exact ⟨[], ⟨.nil, hnone, hnone⟩, by simp⟩
  | @segment position delimiter _ _ _ sheet _ _ frame header hbefore hheader hstop rest ih =>
    obtain ⟨front, hordered, hinside, hperm⟩ := declaredOffsets_addSegment sheet frame header
    obtain ⟨back, hback, hrest⟩ := ih
    have hfront : Added position delimiter [] front := by
      refine ⟨hordered, fun offset hmem => ?_, fun _ _ _ h => (List.not_mem_nil h).elim⟩
      have := hinside offset hmem
      exact ⟨Nat.le_trans hbefore this.1, by omega⟩
    refine ⟨front ++ back, hfront.append hback (by omega) hstop ?_ fun block hmem => ?_, ?_⟩
    · exact fun _ h => (List.not_mem_nil h).elim
    · exact (rest.within block hmem).1
    · rw [← List.append_assoc]
      exact hrest.trans (hperm.append_right back)
  | @passed position _ _ _ _ _ _ block hplace _ rest ih =>
    obtain ⟨back, hback, hrest⟩ := ih
    have hfront : Added position block.close [block] [] := ⟨.nil, hnone, hnone⟩
    refine ⟨back, hfront.append hback ?_ hplace.stop ?_ fun block hmem => ?_, hrest⟩
    · have := hplace.start
      have := hplace.opening
      have := hplace.close
      omega
    · exact List.forall_mem_singleton.mpr (Nat.le_refl _)
    · exact (rest.within block hmem).1
  | @entered position _ _ _ _ _ _ inside _ _ _ block hplace _ hentered hentry inner rest ihinner ihrest =>
    obtain ⟨front, hfront, hperm⟩ := ihinner
    obtain ⟨back, hback, hrest⟩ := ihrest
    obtain ⟨hstart, hopening, hclose, hstop⟩ := hplace
    have hunskipped : block.isSkipped = false := (Bool.or_eq_false_iff.mp hentered).2
    have hwhole : Added position block.close (block :: inside) front := by
      refine ⟨hfront.ordered, fun offset hmem => ?_, fun offset hmem => ?_⟩
      · have := hfront.inside offset hmem
        exact ⟨by omega, this.2⟩
      · exact List.forall_mem_cons.mpr ⟨by simp [hunskipped], hfront.unskipped offset hmem⟩
    refine ⟨front ++ back, hwhole.append hback (by omega) hstop ?_ fun block hmem => ?_, ?_⟩
    · exact List.forall_mem_cons.mpr ⟨Nat.le_refl _, fun block hmem => (inner.within block hmem).2⟩
    · exact (rest.within block hmem).1
    · rw [← List.append_assoc, ← hentry.declaredOffsets_eq]
      exact hrest.trans (hperm.append_right back)

end Reading

/-! ## Whole texts -/

/-- The blocks of a style text. -/
def outlineOf (source : Text) : List Block :=
  outline (Comment.maskStyle source) 0 (Comment.maskStyle source).length []

theorem reading_ofText (source : Text) :
    Reading 0 (Comment.maskStyle source).length [] [] {} (outlineOf source) (ofText source) := by
  have hwalk : walk (bracePairs (Comment.maskStyle source))
      [⟨0, (Comment.maskStyle source).slice 0 (Comment.maskStyle source).length, [], []⟩] {} = _ :=
    walk_cons_eq (Nat.le_refl _) []
  rw [Text.slice_zero_length] at hwalk
  rw [ofText, hwalk, walk]
  exact reading_descend 0 _ [] [] [] {}

theorem headings_ofText (source : Text) :
    (ofText source).headings = ((outlineOf source).filter (·.isRule)).map Block.heading :=
  (reading_ofText source).headings_eq rfl

theorem exists_added_ofText (source : Text) :
    ∃ added, Added 0 (Comment.maskStyle source).length (outlineOf source) added ∧
      (ofText source).declaredOffsets.Perm added :=
  (reading_ofText source).exists_added

theorem nodup_declaredOffsets (source : Text) : (ofText source).declaredOffsets.Nodup := by
  obtain ⟨added, hadded, hperm⟩ := exists_added_ofText source
  exact hperm.nodup_iff.mpr (hadded.ordered.imp Nat.ne_of_lt)

/-- No declaration of a style text stands in a block that is skipped. -/
def PassesOver (source : Text) : Prop :=
  ∀ rule ∈ (ofText source).rules, ∀ declaration ∈ rule.declarations,
    ∀ block ∈ outlineOf source, block.isSkipped = true → ¬ block.Holds declaration.offset

theorem passesOver (source : Text) : PassesOver source := by
  intro rule hrule declaration hdeclaration block hblock hskipped
  obtain ⟨added, hadded, hperm⟩ := exists_added_ofText source
  refine hadded.unskipped _ (hperm.subset ?_) block hblock hskipped
  exact List.mem_flatMap.mpr ⟨rule, hrule, List.mem_map_of_mem hdeclaration⟩

/-- The headers of the conditional at-rules around a rule of a style text, nearest first. -/
def conditionsOf (source : Text) (rule : Rule) : List Text :=
  (((outlineOf source).find? fun block => block.isRule && block.start == rule.offset).map
    (·.conditions)).getD []

/-- The rule of a style text that starts at an offset is the only one. -/
theorem eq_of_offset_eq {source : Text} {rule other : Rule} (hrule : rule ∈ (ofText source).rules)
    (hother : other ∈ (ofText source).rules) (h : rule.offset = other.offset) : rule = other := by
  have hordered := (ofText_nested source).ordered
  obtain ⟨place, hplace⟩ := exists_at_of_mem hrule
  obtain ⟨later, hlater⟩ := exists_at_of_mem hother
  rcases Nat.lt_trichotomy place later with hlt | rfl | hlt
  · exact absurd h (Nat.ne_of_lt (hordered place later rule other hplace hlater hlt))
  · exact hplace.unique hlater
  · exact absurd h.symm (Nat.ne_of_lt (hordered later place other rule hlater hplace hlt))

/-- The condition of a rule is the nearest of the conditional at-rules around it. -/
theorem context_eq {source : Text} {rule : Rule} (h : rule ∈ (ofText source).rules) :
    rule.context = (conditionsOf source rule).headD [] := by
  have hheadings := headings_ofText source
  obtain ⟨block, hblock, hheading⟩ : ∃ block ∈ (outlineOf source).filter (·.isRule),
      block.heading = (rule.offset, rule.selectorText, rule.context) := by
    rw [← List.mem_map, ← hheadings]
    exact List.mem_map_of_mem h
  obtain ⟨hmem, hrule⟩ := List.mem_filter.mp hblock
  have hstart : block.start = rule.offset := congrArg Prod.fst hheading
  cases hfound : (outlineOf source).find? fun block => block.isRule && block.start == rule.offset with
  | none =>
    have := List.find?_eq_none.mp hfound block hmem
    simp [hrule, hstart] at this
  | some found =>
    have hsame := List.find?_some hfound
    rw [Bool.and_eq_true, beq_iff_eq] at hsame
    have hheading : found.heading ∈ (ofText source).headings := by
      rw [headings_ofText]
      exact List.mem_map_of_mem (List.mem_filter.mpr ⟨List.mem_of_find?_eq_some hfound, hsame.1⟩)
    obtain ⟨other, hother, heq⟩ := List.mem_map.mp hheading
    have hoffset : other.offset = rule.offset := (congrArg Prod.fst heq).trans hsame.2
    rw [eq_of_offset_eq h hother hoffset.symm, conditionsOf, hoffset, hfound]
    exact congrArg (·.2.2) heq

theorem announcedBy_of_mem_conditionsOf {source : Text} {rule : Rule} {title : Text}
    (h : title ∈ conditionsOf source rule) : BlockKind.conditional.announcedBy title = true := by
  rw [conditionsOf] at h
  cases hfound : (outlineOf source).find? fun block => block.isRule && block.start == rule.offset with
  | none =>
    rw [hfound] at h
    cases h
  | some block =>
    rw [hfound] at h
    exact (List.mem_filter.mp h).2

theorem ne_nil_of_mem_conditionsOf {source : Text} {rule : Rule} {title : Text}
    (h : title ∈ conditionsOf source rule) : title ≠ [] := by
  rintro rfl
  exact absurd (announcedBy_of_mem_conditionsOf h) (by decide)

/-- The nearest conditional at-rule around a rule is its condition, if there is one. -/
theorem head?_conditionsOf {source : Text} {rule : Rule} (h : rule ∈ (ofText source).rules) :
    (conditionsOf source rule).head? = if rule.context = [] then none else some rule.context := by
  rw [context_eq h]
  cases hconditions : conditionsOf source rule with
  | nil => rfl
  | cons title others =>
    have hne : title ≠ [] := ne_nil_of_mem_conditionsOf (hconditions ▸ List.mem_cons_self)
    rw [List.headD_cons, if_neg hne, List.head?_cons]

end Sheet

end ComponentAudit
