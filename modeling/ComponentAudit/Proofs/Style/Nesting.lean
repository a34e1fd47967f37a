import ComponentAudit.Proofs.Style.Descent

/-! # How the rules of a style text nest

The walk reads a style text from left to right, so whatever it adds stands behind all that the sheet
holds. The open blocks on its stack lie one behind the other, and the rules around a block lower down
are among those around every block above it. Hence a rule that is still open is around every rule
added after it, and once it is closed it gets no more declarations. None of this depends on the braces
being paired: a block that is never closed ends with the block around it. -/

namespace ComponentAudit

/-! ## Titles -/

namespace Text

theorem words_blank {t : Text} (h : Blank t) : words t = [] := by
  induction t with
  | nil => rfl
  | cons c t ih =>
    rw [words, if_pos (h c List.mem_cons_self)]
    exact ih fun d hd => h d (List.mem_cons_of_mem c hd)

theorem words_append_blank (t : Text) {spaces : Text} (h : Blank spaces) :
    words (t ++ spaces) = words t := by
  induction t with
  | nil => exact words_blank h
  | cons c t ih =>
    have hhead : (t ++ spaces).head?.all isSpace = t.head?.all isSpace := by
      cases t with
      | nil =>
        cases spaces with
        | nil => rfl
        | cons d spaces => exact h d List.mem_cons_self
      | cons d t => rfl
    rw [List.cons_append, words, words, ih, hhead]

theorem squeeze_trimRight (t : Text) : squeeze (trimRight t) = squeeze t := by
  obtain ⟨spaces, hblank, hsplit⟩ := trimRight_append t
  rw [squeeze, squeeze, ← words_append_blank (trimRight t) hblank, hsplit]

end Text

/-- The selectors of a rule are what is written, squeezed, and announce no at-rule. -/
structure Rule.Titled (rule : Rule) : Prop where
  squeezed : rule.selectorText = Text.squeeze rule.rawText
  nonempty : rule.selectorText ≠ []
  plain : rule.selectorText.head? ≠ some '@'

theorem Rule.Titled.selectorList_eq {rule : Rule} (h : rule.Titled) :
    rule.selectorList = rule.rawText := by
  have hwritten : rule.rawText ≠ [] := by
    intro hempty
    have hsqueezed := h.squeezed
    rw [hempty] at hsqueezed
    exact h.nonempty hsqueezed
  rw [Rule.selectorList, if_neg (by simpa using hwritten)]

namespace Sheet

/-! ## Sheets and open blocks -/

/-- A rule stands at a place of a sheet. -/
def At (sheet : Sheet) (place : Nat) (rule : Rule) : Prop := sheet.rules[place]? = some rule

/-- All that a sheet holds stands in front of an offset. -/
def Before (sheet : Sheet) (offset : Nat) : Prop :=
  ∀ place rule, sheet.At place rule →
    rule.offset < offset ∧ ∀ declaration ∈ rule.declarations, declaration.offset < offset

/-- Places of rules, nearest first: behind the first of them come the rules around it. -/
def Chained (sheet : Sheet) (enclosing : List Nat) : Prop :=
  ∀ parent more, enclosing = parent :: more → ∃ outer, sheet.At parent outer ∧ outer.enclosing = more

/-- The rule at a place is around every rule that comes after it. -/
def Around (sheet : Sheet) (place : Nat) : Prop :=
  ∀ later rule, sheet.At later rule → place < later → place ∈ rule.enclosing

/-- Rules that nest. -/
structure Nested (sheet : Sheet) : Prop where
  titled : ∀ place rule, sheet.At place rule → rule.Titled
  ordered : ∀ place later rule next, sheet.At place rule → sheet.At later next → place < later →
    rule.offset < next.offset
  declarations : ∀ place rule, sheet.At place rule →
    (rule.offset :: rule.declarations.map (·.offset)).Pairwise (· < ·)
  chained : ∀ place rule, sheet.At place rule →
    sheet.Chained rule.enclosing ∧ ∀ outer ∈ rule.enclosing, outer < place
  /-- Between a rule and one inside it there are only rules inside it. -/
  contiguous : ∀ place middle last between rule, sheet.At middle between → sheet.At last rule →
    place < middle → middle < last → place ∈ rule.enclosing → place ∈ between.enclosing
  /-- A rule that is not around a later one ends in front of it. -/
  closed : ∀ place later rule next, sheet.At place rule → sheet.At later next → place < later →
    place ∉ next.enclosing → ∀ declaration ∈ rule.declarations, declaration.offset < next.offset

/-- An open block: it lies behind all that was read, and the rules around it are still open. -/
structure Frame.Open (sheet : Sheet) (frame : Frame) : Prop where
  behind : sheet.Before frame.offset
  chained : sheet.Chained frame.enclosing
  around : ∀ place ∈ frame.enclosing, place < sheet.rules.length ∧ sheet.Around place

/-- A block that lies in front of another one, and at least as deep. -/
structure Frame.Above (frame below : Frame) : Prop where
  front : frame.body ≠ [] → frame.offset + frame.body.length ≤ below.offset
  deeper : below.enclosing ⊆ frame.enclosing

section Rules

variable {sheet : Sheet} {frame other : Frame} {rule : Rule}

theorem At.lt {place : Nat} (h : sheet.At place rule) : place < sheet.rules.length :=
  (List.getElem?_eq_some_iff.mp h).1

theorem Before.mono {offset further : Nat} (h : sheet.Before offset) (hle : offset ≤ further) :
    sheet.Before further := by
  intro place found hfound
  obtain ⟨hrule, hdeclarations⟩ := h place found hfound
  exact ⟨Nat.lt_of_lt_of_le hrule hle, fun d hd => Nat.lt_of_lt_of_le (hdeclarations d hd) hle⟩

theorem Frame.Open.advance (h : frame.Open sheet) (hle : frame.offset ≤ other.offset)
    (hsame : other.enclosing = frame.enclosing) : other.Open sheet where
  behind := h.behind.mono hle
  chained := hsame ▸ h.chained
  around := hsame ▸ h.around

/-! ### A rule is added -/

theorem at_addRule {place : Nat} {found : Rule} :
    (sheet.addRule rule).At place found ↔
      sheet.At place found ∨ place = sheet.rules.length ∧ found = rule := by
  rw [At, At, addRule, List.getElem?_append]
  split
  · rename_i hlt
    exact ⟨.inl, fun h => h.resolve_right fun h => absurd h.1 (Nat.ne_of_lt hlt)⟩
  · rename_i hge
    rw [List.getElem?_eq_none (Nat.not_lt.mp hge), List.getElem?_singleton]
    constructor
    · intro h
      split at h
      · exact .inr ⟨by omega, (Option.some.inj h).symm⟩
      · cases h
    · rintro (h | ⟨rfl, rfl⟩)
      · cases h
      · simp

theorem Chained.addRule {enclosing : List Nat} (h : sheet.Chained enclosing) :
    (sheet.addRule rule).Chained enclosing := by
  intro parent more hcons
  obtain ⟨outer, hat, henclosing⟩ := h parent more hcons
  exact ⟨outer, at_addRule.mpr (.inl hat), henclosing⟩

theorem Nested.addRule (h : sheet.Nested) (hframe : frame.Open sheet) (htitled : rule.Titled)
    (hoffset : rule.offset = frame.offset) (henclosing : rule.enclosing = frame.enclosing)
    (hempty : rule.declarations = []) : (sheet.addRule rule).Nested where
  titled place found hfound := by
    rcases at_addRule.mp hfound with hold | ⟨-, rfl⟩
    · exact h.titled place found hold
    · exact htitled
  ordered place later found next hfound hnext hlt := by
    rcases at_addRule.mp hfound with hold | ⟨rfl, rfl⟩ <;>
      rcases at_addRule.mp hnext with hlater | ⟨rfl, rfl⟩
    · exact h.ordered place later found next hold hlater hlt
    · exact hoffset ▸ (hframe.behind place found hold).1
    · exact absurd hlater.lt (Nat.not_lt_of_gt hlt)
    · exact absurd hlt (Nat.lt_irrefl _)
  declarations place found hfound := by
    rcases at_addRule.mp hfound with hold | ⟨-, rfl⟩
    · exact h.declarations place found hold
    · simp [hempty]
  chained place found hfound := by
    rcases at_addRule.mp hfound with hold | ⟨rfl, rfl⟩
    · exact ⟨(h.chained place found hold).1.addRule, (h.chained place found hold).2⟩
    · rw [henclosing]
      exact ⟨hframe.chained.addRule, fun outer houter => (hframe.around outer houter).1⟩
  contiguous place middle last between found hbetween hfound hlt hlt' hmem := by
    rcases at_addRule.mp hfound with hold | ⟨rfl, rfl⟩ <;>
      rcases at_addRule.mp hbetween with hmiddle | ⟨rfl, rfl⟩
    · exact h.contiguous place middle last between found hmiddle hold hlt hlt' hmem
    · exact absurd hold.lt (Nat.not_lt_of_gt hlt')
    · exact (hframe.around place (henclosing ▸ hmem)).2 middle between hmiddle hlt
    · exact absurd hlt' (Nat.lt_irrefl _)
  closed place later found next hfound hnext hlt hout := by
    rcases at_addRule.mp hfound with hold | ⟨rfl, rfl⟩ <;>
      rcases at_addRule.mp hnext with hlater | ⟨rfl, rfl⟩
    · exact h.closed place later found next hold hlater hlt hout
    · exact hoffset ▸ (hframe.behind place found hold).2
    · exact absurd hlater.lt (Nat.not_lt_of_gt hlt)
    · exact absurd hlt (Nat.lt_irrefl _)

theorem Before.addRule {offset : Nat} (h : sheet.Before offset) (hlt : rule.offset < offset)
    (hempty : rule.declarations = []) : (sheet.addRule rule).Before offset := by
  intro place found hfound
  rcases at_addRule.mp hfound with hfound | ⟨-, rfl⟩
  · exact h place found hfound
  · exact ⟨hlt, fun declaration hmem => by rw [hempty] at hmem; cases hmem⟩

theorem Around.addRule {place : Nat} (h : sheet.Around place) (hmem : place ∈ rule.enclosing) :
    (sheet.addRule rule).Around place := by
  intro later found hfound hlt
  rcases at_addRule.mp hfound with hfound | ⟨-, rfl⟩
  · exact h later found hfound hlt
  · exact hmem

/-- A rule is added in front of the blocks that stay open, and inside the rules around them. -/
theorem Frame.Open.addRule (h : frame.Open sheet) (hlt : rule.offset < frame.offset)
    (hempty : rule.declarations = []) (hdeeper : frame.enclosing ⊆ rule.enclosing) :
    frame.Open (sheet.addRule rule) where
  behind := h.behind.addRule hlt hempty
  chained := h.chained.addRule
  around place hmem := by
    obtain ⟨hplace, haround⟩ := h.around place hmem
    refine ⟨?_, haround.addRule (hdeeper hmem)⟩
    rw [Sheet.addRule, List.length_append]
    exact Nat.lt_add_right _ hplace

/-- The block of the rule that was just added. -/
theorem Frame.Open.ofRule (h : frame.Open sheet) (hoffset : rule.offset = frame.offset)
    (hlt : frame.offset < other.offset) (hempty : rule.declarations = [])
    (henclosing : rule.enclosing = frame.enclosing)
    (hother : other.enclosing = sheet.rules.length :: frame.enclosing) :
    other.Open (sheet.addRule rule) where
  behind := (h.behind.mono (Nat.le_of_lt hlt)).addRule (hoffset ▸ hlt) hempty
  chained parent more hcons := by
    obtain ⟨rfl, rfl⟩ := List.cons.inj (hother.symm.trans hcons)
    exact ⟨rule, at_addRule.mpr (.inr ⟨rfl, rfl⟩), henclosing⟩
  around place hmem := by
    have hlength : (sheet.addRule rule).rules.length = sheet.rules.length + 1 := by
      rw [Sheet.addRule, List.length_append, List.length_singleton]
    rw [hother] at hmem
    rcases List.mem_cons.mp hmem with rfl | hmem
    · refine ⟨hlength ▸ Nat.lt_succ_self _, fun later found hfound hlt => ?_⟩
      have hend := hfound.lt
      omega
    · obtain ⟨hplace, haround⟩ := h.around place hmem
      exact ⟨by omega, haround.addRule (henclosing ▸ hmem)⟩

/-! ### A declaration is added -/

variable {parent : Nat} {declaration : Declaration}

/-- Only the declarations of one rule change. -/
theorem At.of_addDeclaration {place : Nat} {found : Rule}
    (h : (sheet.addDeclaration parent declaration).At place found) :
    ∃ old, sheet.At place old ∧ found = { old with declarations := found.declarations } ∧
      (found.declarations = old.declarations ∨
        place = parent ∧ found.declarations = old.declarations ++ [declaration]) := by
  rw [At, addDeclaration, List.getElem?_modify] at h
  obtain ⟨old, hold, rfl⟩ := Option.map_eq_some_iff.mp h
  refine ⟨old, hold, ?_⟩
  split
  · rename_i heq
    exact ⟨rfl, .inr ⟨heq.symm, rfl⟩⟩
  · exact ⟨rfl, .inl rfl⟩

theorem At.addDeclaration {place : Nat} (h : sheet.At place rule) (parent : Nat)
    (declaration : Declaration) :
    ∃ declarations, (sheet.addDeclaration parent declaration).At place { rule with declarations } := by
  have hplace : sheet.rules[place]? = some rule := h
  by_cases hsame : parent = place
  · refine ⟨rule.declarations ++ [declaration], ?_⟩
    rw [At, Sheet.addDeclaration, hsame, List.getElem?_modify_eq, hplace]
    rfl
  · exact ⟨rule.declarations, (List.getElem?_modify_ne _ _ hsame).trans hplace⟩

theorem Chained.addDeclaration {enclosing : List Nat} (h : sheet.Chained enclosing) :
    (sheet.addDeclaration parent declaration).Chained enclosing := by
  intro nearest more hcons
  obtain ⟨outer, hat, henclosing⟩ := h nearest more hcons
  obtain ⟨declarations, hsame⟩ := hat.addDeclaration parent declaration
  exact ⟨_, hsame, henclosing⟩

/-- A declaration goes to the nearest rule around an open block, and stands in that block. -/
theorem Nested.addDeclaration (h : sheet.Nested) (hframe : frame.Open sheet)
    (hparent : parent ∈ frame.enclosing) (hle : frame.offset ≤ declaration.offset) :
    (sheet.addDeclaration parent declaration).Nested where
  titled place found hfound := by
    obtain ⟨old, hold, heq, -⟩ := hfound.of_addDeclaration
    obtain ⟨hsqueezed, hnonempty, hplain⟩ := h.titled place old hold
    rw [heq]
    exact ⟨hsqueezed, hnonempty, hplain⟩
  ordered place later found next hfound hnext hlt := by
    obtain ⟨old, hold, heq, -⟩ := hfound.of_addDeclaration
    obtain ⟨after, hafter, heq', -⟩ := hnext.of_addDeclaration
    rw [heq, heq']
    exact h.ordered place later old after hold hafter hlt
  declarations place found hfound := by
    obtain ⟨old, hold, heq, hsame | ⟨-, hadded⟩⟩ := hfound.of_addDeclaration
    · rw [heq, hsame]
      exact h.declarations place old hold
    · obtain ⟨hrule, hdeclarations⟩ := hframe.behind place old hold
      have hbefore : ∀ offset ∈ old.offset :: old.declarations.map (·.offset),
          offset < declaration.offset := by
        refine List.forall_mem_cons.mpr ⟨Nat.lt_of_lt_of_le hrule hle, ?_⟩
        intro offset hmem
        obtain ⟨other, hother, rfl⟩ := List.mem_map.mp hmem
        exact Nat.lt_of_lt_of_le (hdeclarations other hother) hle
      rw [heq, hadded]
      dsimp only
      rw [List.map_append, ← List.cons_append, List.pairwise_append]
      refine ⟨h.declarations place old hold, List.pairwise_singleton _ _, ?_⟩
      intro offset hmem added hadded
      exact List.mem_singleton.mp hadded ▸ hbefore offset hmem
  chained place found hfound := by
    obtain ⟨old, hold, heq, -⟩ := hfound.of_addDeclaration
    rw [heq]
    exact ⟨(h.chained place old hold).1.addDeclaration, (h.chained place old hold).2⟩
  contiguous place middle last between found hbetween hfound hlt hlt' hmem := by
    obtain ⟨old, hold, heq, -⟩ := hfound.of_addDeclaration
    obtain ⟨inner, hinner, heq', -⟩ := hbetween.of_addDeclaration
    rw [heq] at hmem
    rw [heq']
    exact h.contiguous place middle last inner old hinner hold hlt hlt' hmem
  closed place later found next hfound hnext hlt hout := by
    obtain ⟨old, hold, heq, hdeclarations⟩ := hfound.of_addDeclaration
    obtain ⟨after, hafter, heq', -⟩ := hnext.of_addDeclaration
    rw [heq'] at hout ⊢
    rcases hdeclarations with hsame | ⟨rfl, -⟩
    · rw [hsame]
      exact h.closed place later old after hold hafter hlt hout
    · -- the rule that takes the declaration is open, so it is around all later rules
      exact absurd ((hframe.around place hparent).2 later after hafter hlt) hout

/-- A declaration is added in front of the blocks that stay open. -/
theorem Frame.Open.addDeclaration (h : frame.Open sheet) (hlt : declaration.offset < frame.offset) :
    frame.Open (sheet.addDeclaration parent declaration) where
  behind place found hfound := by
    obtain ⟨old, hold, heq, hdeclarations⟩ := hfound.of_addDeclaration
    obtain ⟨hrule, hbefore⟩ := h.behind place old hold
    refine ⟨heq ▸ hrule, ?_⟩
    rcases hdeclarations with hsame | ⟨-, hadded⟩
    · rw [hsame]
      exact hbefore
    · rw [hadded]
      exact List.forall_mem_append.mpr ⟨hbefore, List.forall_mem_singleton.mpr hlt⟩
  chained := h.chained.addDeclaration
  around place hmem := by
    obtain ⟨hplace, haround⟩ := h.around place hmem
    refine ⟨?_, fun later found hfound hlt => ?_⟩
    · rw [Sheet.addDeclaration, List.length_modify]
      exact hplace
    · obtain ⟨old, hold, heq, -⟩ := hfound.of_addDeclaration
      rw [heq]
      exact haround later old hold hlt

theorem Declaration.offset_of_ofSegment? {offset : Nat} {segment : Text}
    (h : Declaration.ofSegment? offset segment = some declaration) :
    offset ≤ declaration.offset ∧ declaration.offset < offset + segment.length := by
  unfold Declaration.ofSegment? at h
  simp only [Option.bind_eq_bind, Option.bind_eq_some_iff, Prod.exists] at h
  obtain ⟨written, value, hcut, h⟩ := h
  split at h
  · cases h
  · obtain rfl := Option.some.inj h
    have hle := (List.takeWhile_prefix (l := written) isSpace).length_le
    have hlength := congrArg List.length (Text.eq_append_of_cut? hcut)
    simp only [List.length_append] at hlength
    have hcolon : (":" : Text).length = 1 := rfl
    dsimp only
    omega

/-- A segment adds at most one declaration to the rules, and that stands in it. -/
theorem addSegment_cases (sheet : Sheet) (frame : Frame) (segment : Text) :
    (∃ statements, sheet.addSegment frame segment = { sheet with statements }) ∨
      ∃ parent declaration, parent ∈ frame.enclosing ∧ frame.offset ≤ declaration.offset ∧
        declaration.offset < frame.offset + segment.length ∧
        sheet.addSegment frame segment = sheet.addDeclaration parent declaration := by
  unfold addSegment
  dsimp only
  split
  · exact .inl ⟨_, rfl⟩
  · split
    · rename_i parent more declaration henclosing hdeclaration
      obtain ⟨hle, hlt⟩ := Declaration.offset_of_ofSegment? hdeclaration
      exact .inr ⟨parent, declaration, henclosing ▸ List.mem_cons_self, hle, hlt, rfl⟩
    · exact .inl ⟨_, rfl⟩

theorem Nested.addSegment (h : sheet.Nested) (hframe : frame.Open sheet) (segment : Text) :
    (sheet.addSegment frame segment).Nested := by
  rcases addSegment_cases sheet frame segment with ⟨statements, heq⟩ |
    ⟨parent, declaration, hparent, hle, -, heq⟩
  · rw [heq]
    exact ⟨h.titled, h.ordered, h.declarations, h.chained, h.contiguous, h.closed⟩
  · rw [heq]
    exact h.addDeclaration hframe hparent hle

theorem Frame.Open.addSegment {segment : Text} (h : other.Open sheet)
    (hle : frame.offset + segment.length ≤ other.offset) :
    other.Open (sheet.addSegment frame segment) := by
  rcases addSegment_cases sheet frame segment with ⟨statements, heq⟩ |
    ⟨parent, declaration, -, -, hlt, heq⟩
  · rw [heq]
    exact ⟨h.behind, h.chained, h.around⟩
  · rw [heq]
    exact h.addDeclaration (Nat.lt_of_lt_of_le hlt hle)

end Rules

/-! ## The walk -/

/-- What a header that is entered opens: the block of a rule, or one that adds no rule. -/
theorem enter_cases {sheet opened : Sheet} {frame child : Frame} {header inside : Text}
    (h : enter sheet frame header inside = some (child, opened)) :
    child.offset = frame.offset + header.length + 1 ∧ child.body = inside ∧
      (child.enclosing = frame.enclosing ∧ opened = sheet ∨
        ∃ rule : Rule, rule.Titled ∧ rule.offset = frame.offset ∧ rule.declarations = [] ∧
          rule.enclosing = frame.enclosing ∧ opened = sheet.addRule rule ∧
          child.enclosing = sheet.rules.length :: frame.enclosing) := by
  unfold enter at h
  dsimp only at h
  split at h
  · cases h
  · rename_i htitle
    split at h
    · split at h
      · cases h
      · obtain ⟨rfl, rfl⟩ := Prod.mk.inj (Option.some.inj h)
        exact ⟨rfl, rfl, .inl ⟨rfl, rfl⟩⟩
    · rename_i hat
      obtain ⟨rfl, rfl⟩ := Prod.mk.inj (Option.some.inj h)
      refine ⟨rfl, rfl, .inr ⟨_, ⟨?_, ?_, ?_⟩, rfl, rfl, rfl, rfl, rfl⟩⟩
      · exact (Text.squeeze_trimRight header).symm
      · exact fun hempty => htitle (List.isEmpty_iff.mpr hempty)
      · exact fun hhead => hat (beq_iff_eq.mpr hhead)

/-- A stack of open blocks over a sheet whose rules nest. -/
structure Stacked (frames : List Frame) (sheet : Sheet) : Prop where
  nested : sheet.Nested
  blocks : ∀ frame ∈ frames, frame.Open sheet
  stacked : frames.Pairwise Frame.Above

section Walk

variable {pairs : List (Nat × Nat)} {frame other : Frame} {frames : List Frame} {sheet : Sheet}

theorem Stacked.push (h : Stacked frames sheet) (hframe : frame.Open sheet)
    (habove : ∀ below ∈ frames, frame.Above below) : Stacked (frame :: frames) sheet :=
  ⟨h.nested, List.forall_mem_cons.mpr ⟨hframe, h.blocks⟩, List.pairwise_cons.mpr ⟨habove, h.stacked⟩⟩

/-- What takes the place of a block and does not reach behind it lies above the same blocks. -/
theorem Frame.Above.shorten {below : Frame} (h : frame.Above below) (hbody : frame.body ≠ [])
    (hend : other.body ≠ [] → other.offset + other.body.length ≤ frame.offset + frame.body.length)
    (hdeeper : frame.enclosing ⊆ other.enclosing) : other.Above below :=
  ⟨fun hother => Nat.le_trans (hend hother) (h.front hbody), List.Subset.trans h.deeper hdeeper⟩

theorem Stacked.ink (h : Stacked (frame :: frames) sheet) : Stacked (frame.ink :: frames) sheet := by
  obtain ⟨hframe, hbelow⟩ := List.forall_mem_cons.mp h.blocks
  obtain ⟨habove, hstacked⟩ := List.pairwise_cons.mp h.stacked
  have hrest : Stacked frames sheet := ⟨h.nested, hbelow, hstacked⟩
  refine hrest.push (hframe.advance (Nat.le_add_right _ _) rfl) fun below hmem => ?_
  by_cases hbody : frame.body = []
  · refine ⟨fun hink => absurd ?_ hink, (habove below hmem).deeper⟩
    rw [Frame.ink, hbody]
    rfl
  · refine (habove below hmem).shorten hbody (fun _ => ?_) (List.Subset.refl _)
    have hlength := congrArg List.length
      (List.takeWhile_append_dropWhile (p := isSpace) (l := frame.body))
    rw [List.length_append] at hlength
    change frame.offset + (frame.body.takeWhile isSpace).length + (frame.body.dropWhile isSpace).length
      ≤ _
    omega

theorem Stacked.addSegment {segment : Text} (h : Stacked (frame :: frames) sheet)
    (hbody : frame.body ≠ []) (hle : segment.length ≤ frame.body.length) :
    Stacked frames (sheet.addSegment frame segment) := by
  obtain ⟨hframe, hbelow⟩ := List.forall_mem_cons.mp h.blocks
  obtain ⟨habove, hstacked⟩ := List.pairwise_cons.mp h.stacked
  refine ⟨h.nested.addSegment hframe segment, fun below hmem => ?_, hstacked⟩
  have hfront := (habove below hmem).front hbody
  exact (hbelow below hmem).addSegment (by omega)

/-- A block is taken up again behind a brace, or left. -/
theorem Frame.Above.behind {below : Frame} {header rest : Text} (h : frame.Above below)
    (hbody : frame.body ≠ []) (hlength : header.length + 1 + rest.length = frame.body.length)
    (size : Nat) : (frame.behind header rest size).Above below := by
  refine h.shorten hbody (fun hrest => ?_) (List.Subset.refl _)
  have hpos := List.length_pos_iff.mpr hrest
  simp only [Frame.behind, List.length_drop] at hpos ⊢
  omega

theorem Stacked.addRule {rule : Rule} (h : Stacked (frame :: frames) sheet) (hbody : frame.body ≠ [])
    (htitled : rule.Titled) (hoffset : rule.offset = frame.offset)
    (hempty : rule.declarations = []) (henclosing : rule.enclosing = frame.enclosing) :
    Stacked frames (sheet.addRule rule) := by
  obtain ⟨hframe, hbelow⟩ := List.forall_mem_cons.mp h.blocks
  obtain ⟨habove, hstacked⟩ := List.pairwise_cons.mp h.stacked
  refine ⟨h.nested.addRule hframe htitled hoffset henclosing hempty, fun below hmem => ?_, hstacked⟩
  have hfront := (habove below hmem).front hbody
  have hpos := List.length_pos_iff.mpr hbody
  exact (hbelow below hmem).addRule (by omega) hempty (henclosing ▸ (habove below hmem).deeper)

theorem length_of_segment {body header rest : Text} {d : Char}
    (h : segment body = (header, some (d, rest))) :
    header.length + 1 + rest.length = body.length := by
  have hsplit := length_segmentFrom none 0 body d rest (congrArg Prod.snd h)
  rwa [← segment, h] at hsplit

/-- A step keeps the stack in order, whatever it does. -/
theorem Stacked.outcome {next : List Frame} {added : Sheet} (h : Stacked (frame :: frames) sheet)
    (houtcome : Outcome pairs frame sheet next added) : Stacked (next ++ frames) added := by
  obtain ⟨hframe, hbelow⟩ := List.forall_mem_cons.mp h.blocks
  obtain ⟨habove, hstacked⟩ := List.pairwise_cons.mp h.stacked
  have hkept : Stacked frames sheet := ⟨h.nested, hbelow, hstacked⟩
  cases houtcome with
  | done => exact hkept
  | @last header hbody hsegment =>
    refine h.addSegment hbody ?_
    have happend := segmentFrom_append_stop none 0 frame.body
    rw [← segment, hsegment] at happend
    exact Nat.le_of_eq (by simpa using congrArg List.length happend)
  | @segment header rest d hbody hd hsegment =>
    have hlength := length_of_segment hsegment
    refine (h.addSegment hbody (by omega)).push ?_ fun below hmem => ?_
    · refine Frame.Open.addSegment (hframe.advance ?_ rfl) ?_ <;> simp only [Frame.past] <;> omega
    · refine (habove below hmem).shorten hbody (fun _ => ?_) (List.Subset.refl _)
      simp only [Frame.past]
      omega
  | @skipped header rest size hbody hsegment hsize henter =>
    have hlength := length_of_segment hsegment
    refine hkept.push (hframe.advance ?_ rfl) fun below hmem =>
      (habove below hmem).behind hbody hlength size
    simp only [Frame.behind]
    omega
  | @entered header rest size child opened hbody hsegment hsize henter =>
    have hlength := length_of_segment hsegment
    obtain ⟨hoffset, hinside, hkind⟩ := enter_cases henter
    have htake : child.body.length ≤ size ∧ child.body.length ≤ rest.length := by
      rw [hinside, List.length_take]
      omega
    have hbehind : frame.offset < (frame.behind header rest size).offset := by
      simp only [Frame.behind]
      omega
    -- the block goes on behind the brace that closes the child
    have hresume : frame.enclosing ⊆ child.enclosing →
        ∀ below ∈ frame.behind header rest size :: frames, child.Above below := by
      intro hdeeper
      refine List.forall_mem_cons.mpr ⟨⟨fun _ => ?_, hdeeper⟩, fun below hmem => ?_⟩
      · simp only [Frame.behind]
        omega
      · exact (habove below hmem).shorten hbody (fun _ => by omega) hdeeper
    rcases hkind with ⟨henclosing, rfl⟩ |
      ⟨rule, htitled, hrule, hempty, hunder, rfl, henclosing⟩
    · have hrest := hkept.push (hframe.advance (Nat.le_of_lt hbehind) rfl) fun below hmem =>
        (habove below hmem).behind hbody hlength size
      refine hrest.push (hframe.advance (by omega) henclosing) (hresume ?_)
      exact henclosing ▸ List.Subset.refl _
    · have hopen : (frame.behind header rest size).Open sheet :=
        hframe.advance (Nat.le_of_lt hbehind) rfl
      have hrest := (h.addRule hbody htitled hrule hempty hunder).push
        (hopen.addRule (hrule ▸ hbehind) hempty (hunder ▸ List.Subset.refl _)) fun below hmem =>
          (habove below hmem).behind hbody hlength size
      refine hrest.push (hframe.ofRule hrule (by omega) hempty hunder henclosing) (hresume ?_)
      exact henclosing ▸ List.subset_cons_self _ _

theorem Stacked.step (pairs : List (Nat × Nat)) (h : Stacked (frame :: frames) sheet) :
    Stacked ((step pairs frame sheet).1 ++ frames) (step pairs frame sheet).2 :=
  h.ink.outcome (step_outcome pairs frame sheet)

theorem Stacked.walk (h : Stacked frames sheet) : (walk pairs frames sheet).Nested := by
  fun_induction Sheet.walk pairs frames sheet with
  | case1 sheet => exact h.nested
  | case2 sheet frame frames ih => exact ih (h.step pairs)

end Walk

theorem not_at_empty (place : Nat) (rule : Rule) : ¬ ({} : Sheet).At place rule := by
  intro h
  cases h.lt

theorem ofText_nested (source : Text) : (ofText source).Nested := by
  refine Stacked.walk ⟨?_, List.forall_mem_singleton.mpr ⟨?_, ?_, ?_⟩, List.pairwise_singleton _ _⟩
  · refine ⟨?_, ?_, ?_, ?_, ?_, ?_⟩ <;> intros <;> exact absurd ‹_› (not_at_empty _ _)
  · exact fun place rule h => absurd h (not_at_empty place rule)
  · exact fun parent more h => by cases h
  · exact fun place h => by cases h

/-! ## What is read -/

/-- How the rules of a style text are laid out, however it is written. -/
structure Structured (masked : Text) (sheet : Sheet) : Prop where
  ordered : sheet.rules.Pairwise fun rule later => rule.offset < later.offset
  /-- The parent of a rule comes before it, and the rules around the parent are around the rule. -/
  parent : ∀ place rule, sheet.At place rule → ∀ parent more, rule.enclosing = parent :: more →
    parent < place ∧ ∃ outer, sheet.At parent outer ∧ outer.enclosing = more
  selectors : ∀ rule ∈ sheet.rules,
    masked.slice rule.offset (rule.offset + rule.rawText.length) = rule.rawText ∧ rule.Titled
  declarations : ∀ rule ∈ sheet.rules,
    (rule.offset :: rule.declarations.map (·.offset)).Pairwise (· < ·)
  /-- Whatever stands in a rule that is not around a later one stands in front of that one. -/
  laminar : ∀ place later rule next, sheet.At place rule → sheet.At later next → place < later →
    place ∉ next.enclosing → ∀ inner inside, sheet.At inner inside →
    inner = place ∨ place ∈ inside.enclosing →
    ∀ declaration ∈ inside.declarations, declaration.offset < next.offset

variable {sheet : Sheet}

theorem At.unique {place : Nat} {rule other : Rule} (h : sheet.At place rule)
    (hother : sheet.At place other) : rule = other :=
  Option.some.inj (h.symm.trans hother)

theorem exists_at_of_mem {rule : Rule} (h : rule ∈ sheet.rules) : ∃ place, sheet.At place rule :=
  List.mem_iff_getElem?.mp h

/-- The rules around a rule that is among those around a block are among them, too. -/
theorem Nested.enclosing_subset (h : sheet.Nested) {enclosing : List Nat}
    (hchained : sheet.Chained enclosing) {place : Nat} {rule : Rule} (hrule : sheet.At place rule)
    (hmem : place ∈ enclosing) : rule.enclosing ⊆ enclosing := by
  induction enclosing with
  | nil => cases hmem
  | cons parent more ih =>
    obtain ⟨outer, houter, rfl⟩ := hchained parent more rfl
    rcases List.mem_cons.mp hmem with rfl | hmem
    · rw [hrule.unique houter]
      exact List.subset_cons_self _ _
    · exact List.subset_cons_of_subset _ (ih (h.chained parent outer houter).1 hmem)

theorem Nested.laminar (h : sheet.Nested) {place later inner : Nat} {next inside : Rule}
    (hnext : sheet.At later next) (hlt : place < later)
    (hout : place ∉ next.enclosing) (hinside : sheet.At inner inside)
    (hwithin : inner = place ∨ place ∈ inside.enclosing) :
    ∀ declaration ∈ inside.declarations, declaration.offset < next.offset := by
  rcases hwithin with rfl | hwithin
  · exact h.closed inner later inside next hinside hnext hlt hout
  · rcases Nat.lt_trichotomy inner later with hbefore | rfl | hbehind
    · refine h.closed inner later inside next hinside hnext hbefore fun haround => hout ?_
      exact h.enclosing_subset (h.chained later next hnext).1 hinside haround hwithin
    · exact absurd (hinside.unique hnext ▸ hwithin) hout
    · -- the later rule would stand between a rule and one inside it
      exact absurd (h.contiguous place later inner next inside hnext hinside hlt hbehind hwithin) hout

/-- However a style text is written, its rules come in the order in which they stand in it, behind
their parents and with the selectors that stand there; and what belongs to a rule lies in one stretch,
which holds no rule that the rule is not around. -/
theorem ofText_structured (source : Text) :
    (ofText source).Structured (Comment.maskStyle source) := by
  have hnested := ofText_nested source
  have hplaced := ofText_placedIn source
  refine ⟨?_, ?_, ?_, ?_, ?_⟩
  · rw [List.pairwise_iff_getElem]
    intro place later hplace hlater hlt
    exact hnested.ordered place later _ _ (List.getElem?_eq_getElem hplace)
      (List.getElem?_eq_getElem hlater) hlt
  · intro place rule hrule parent more henclosing
    obtain ⟨hchained, hbefore⟩ := hnested.chained place rule hrule
    exact ⟨hbefore parent (henclosing ▸ List.mem_cons_self), hchained parent more henclosing⟩
  · intro rule hmem
    obtain ⟨place, hrule⟩ := exists_at_of_mem hmem
    exact ⟨Text.slice_of_prefix (hplaced rule hmem).selectors, hnested.titled place rule hrule⟩
  · intro rule hmem
    obtain ⟨place, hrule⟩ := exists_at_of_mem hmem
    exact hnested.declarations place rule hrule
  · intro place later rule next _ hnext hlt hout inner inside hinside hwithin
    exact hnested.laminar hnext hlt hout hinside hwithin

end Sheet

end ComponentAudit
