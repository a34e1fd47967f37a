import ComponentAudit.Proofs.Text.Trim
import ComponentAudit.Style.Override

/-! # Where rules and declarations stand

The walk over a style text keeps, for each open block, the rest of its body and the offset at which
that rest stands in the masked text. Hence the selector list of a rule and the name of a declaration
stand in the masked text at the offsets given for them. -/

namespace ComponentAudit

namespace Text

/-- What stands in a part of a text stands in the text, the offset of the part added. -/
theorem prefix_drop_add {t whole part : Text} {offset n : Nat} (h : whole <+: t.drop offset)
    (hp : part <+: whole.drop n) : part <+: t.drop (offset + n) := by
  obtain ⟨rest, hrest⟩ := h
  rw [← List.drop_drop, ← hrest, List.drop_append]
  exact hp.trans (List.prefix_append _ _)

end Text

/-! ## Selector lists -/

namespace Selector

theorem splitCommas_ne_nil (depth : Nat) (t : Text) : splitCommas depth t ≠ [] := by
  fun_cases splitCommas depth t <;> simp [Text.consHead_ne_nil]

/-- The pieces of a list with commas between them are the list. -/
theorem join_splitCommas (depth : Nat) (t : Text) : Text.join [','] (splitCommas depth t) = t := by
  have hcons := fun depth rest c => Text.join_consHead [','] c (splitCommas_ne_nil depth rest)
  fun_induction splitCommas depth t with
  | case1 => rfl
  | case2 depth c rest _ ih => rw [hcons, ih]
  | case3 depth c rest _ _ ih => rw [hcons, ih]
  | case4 depth c rest _ _ hcomma ih =>
    simp only [Bool.and_eq_true, beq_iff_eq] at hcomma
    obtain ⟨first, more, he⟩ := List.exists_cons_of_ne_nil (splitCommas_ne_nil 0 rest)
    rw [he] at ih ⊢
    rw [Text.join_cons_cons, ih, hcomma.1]
    rfl
  | case5 depth c rest _ _ _ ih => rw [hcons, ih]

/-- A piece stands in the joined text at its offset. -/
theorem mem_withOffsets {pieces : List Text} {piece : Text} {offset n : Nat}
    (h : (piece, n) ∈ withOffsets offset pieces) :
    ∃ k, n = offset + k ∧ piece <+: (Text.join [','] pieces).drop k := by
  induction pieces generalizing offset with
  | nil => cases h
  | cons first more ih =>
    rcases List.mem_cons.mp h with h | h
    · obtain ⟨rfl, rfl⟩ := Prod.mk.inj h
      obtain ⟨tail, htail⟩ := Text.join_cons_eq [','] piece more
      exact ⟨0, rfl, htail ▸ List.prefix_append piece tail⟩
    · obtain ⟨k, rfl, hk⟩ := ih h
      refine ⟨first.length + 1 + k, by omega, ?_⟩
      cases more with
      | nil => cases h
      | cons next more =>
        rw [Text.join_cons_cons, ← List.drop_drop, List.drop_left' (by simp)]
        exact hk

/-- A selector of a list stands in it at its offset, and is neither empty nor has white space at its
ends. -/
theorem mem_split {t part : Text} {offset : Nat} (h : (part, offset) ∈ split t) :
    part ≠ [] ∧ Text.trim part = part ∧ part <+: t.drop offset := by
  obtain ⟨⟨piece, start⟩, hpiece, hpart⟩ := List.mem_filterMap.mp h
  simp only at hpart
  split at hpart
  · cases hpart
  · rename_i hne
    obtain ⟨rfl, rfl⟩ := Prod.mk.inj (Option.some.inj hpart)
    have hmem : (piece, start) ∈ withOffsets 0 (splitCommas 0 t) := by
      unfold closedPieces at hpiece
      simp only at hpiece
      split at hpiece
      · exact hpiece
      · exact List.dropLast_subset _ hpiece
    obtain ⟨k, rfl, hk⟩ := mem_withOffsets hmem
    rw [join_splitCommas] at hk
    obtain ⟨spaces, -, htrim⟩ := Text.drop_eq_trim_append piece
    refine ⟨fun he => hne (List.isEmpty_iff.mpr he), Text.trim_trim piece, ?_⟩
    rw [Nat.zero_add]
    exact Text.prefix_drop_add hk ⟨spaces, htrim.symm⟩

end Selector

/-! ## Declarations and rules -/

/-- A declaration's name stands in a style text at its offset, a colon behind it. -/
def Declaration.PlacedIn (masked : Text) (declaration : Declaration) : Prop :=
  ∃ name spaces : Text, isPropertyName name = true ∧ Blank spaces ∧
    name ++ spaces ++ [':'] <+: masked.drop declaration.offset ∧
    declaration.property = if ("--" : Text).isPrefixOf name then name else Text.lower name

/-- A rule stands in a style text with its selector list and its declarations. -/
structure Rule.PlacedIn (masked : Text) (rule : Rule) : Prop where
  selectors : rule.rawText <+: masked.drop rule.offset
  declarations : ∀ declaration ∈ rule.declarations, declaration.PlacedIn masked

theorem Declaration.ofSegment?_placedIn {masked segment : Text} {offset : Nat}
    {declaration : Declaration} (hsegment : segment <+: masked.drop offset)
    (h : ofSegment? offset segment = some declaration) : declaration.PlacedIn masked := by
  unfold ofSegment? at h
  simp only [Option.bind_eq_bind, Option.bind_eq_some_iff, Prod.exists] at h
  obtain ⟨written, value, hcut, h⟩ := h
  split at h
  · cases h
  · rename_i hname
    obtain rfl := Option.some.inj h
    obtain ⟨spaces, hblank, htrim⟩ := Text.drop_eq_trim_append written
    refine ⟨Text.trim written, spaces, by simpa using hname, hblank, ?_, rfl⟩
    refine Text.prefix_drop_add hsegment ⟨value, ?_⟩
    have hle := (List.takeWhile_prefix (l := written) isSpace).length_le
    rw [Text.eq_append_of_cut? hcut, List.append_assoc written, List.drop_append_of_le_length hle,
      htrim, List.append_assoc (_ ++ spaces)]
    rfl

namespace Sheet

/-- Every rule of a sheet stands in the style text. -/
def PlacedIn (masked : Text) (sheet : Sheet) : Prop := ∀ rule ∈ sheet.rules, rule.PlacedIn masked

/-- The rest of an open block stands in the style text. -/
def Frame.Within (masked : Text) (frame : Frame) : Prop := frame.body <+: masked.drop frame.offset

section Walk

variable {masked : Text} {sheet : Sheet} {frame : Frame} {pairs : List (Nat × Nat)}

theorem PlacedIn.addRule {rule : Rule} (h : sheet.PlacedIn masked) (hrule : rule.PlacedIn masked) :
    (sheet.addRule rule).PlacedIn masked := by
  intro other hother
  rcases List.mem_append.mp hother with hother | hother
  · exact h other hother
  · exact List.mem_singleton.mp hother ▸ hrule

theorem PlacedIn.addDeclaration {declaration : Declaration} (h : sheet.PlacedIn masked) (place : Nat)
    (hd : declaration.PlacedIn masked) : (sheet.addDeclaration place declaration).PlacedIn masked := by
  intro rule hrule
  obtain ⟨i, hi⟩ := List.mem_iff_getElem?.mp hrule
  rw [Sheet.addDeclaration, List.getElem?_modify] at hi
  obtain ⟨old, hold, rfl⟩ := Option.map_eq_some_iff.mp hi
  have hplaced := h old (List.mem_of_getElem? hold)
  split
  · refine ⟨hplaced.selectors, fun other hother => ?_⟩
    rcases List.mem_append.mp hother with hother | hother
    · exact hplaced.declarations other hother
    · exact List.mem_singleton.mp hother ▸ hd
  · exact hplaced

theorem PlacedIn.addSegment {segment : Text} (h : sheet.PlacedIn masked)
    (hsegment : segment <+: masked.drop frame.offset) :
    (sheet.addSegment frame segment).PlacedIn masked := by
  unfold Sheet.addSegment
  simp only
  split
  · exact h
  · split
    · rename_i parent _ declaration _ hd
      exact h.addDeclaration parent (Declaration.ofSegment?_placedIn hsegment hd)
    · exact h

/-- A segment and what ends it are the text that it was taken off. -/
theorem segmentFrom_append_stop (quote : Option Char) (depth : Nat) (body : Text) :
    (segmentFrom quote depth body).1 ++
      ((segmentFrom quote depth body).2.elim [] fun (d, rest) => d :: rest) = body := by
  fun_induction segmentFrom quote depth body <;> grind

/-- A character that is neither a quote nor a delimiter is passed over, and counted if it is a
bracket. -/
theorem segmentFrom_cons {depth : Nat} {c : Char} (hquote : isStyleQuote c = false)
    (hstop : (depth == 0 && (c == '{' || c == ';' || c == '}')) = false) (rest : Text) :
    segmentFrom none depth (c :: rest) =
      (c :: (segmentFrom none (Selector.bracketDepth depth [c]) rest).1,
        (segmentFrom none (Selector.bracketDepth depth [c]) rest).2) := by
  rw [segmentFrom]
  dsimp only
  rw [if_neg (ne_true_of_eq_false hstop), if_neg (ne_true_of_eq_false hquote), Selector.bracketDepth]
  by_cases hopen : (c == '(' || c == '[') = true
  · rw [if_pos hopen, if_pos hopen]
    rfl
  · rw [if_neg hopen, if_neg hopen]
    by_cases hclose : (c == ')' || c == ']') = true
    · rw [if_pos hclose, if_pos hclose]
      rfl
    · rw [if_neg hclose, if_neg hclose]
      rfl

theorem segment_placed {body : Text} {offset : Nat} (h : body <+: masked.drop offset) :
    (segment body).1 <+: masked.drop offset ∧ ∀ d rest, (segment body).2 = some (d, rest) →
      rest <+: masked.drop (offset + ((segment body).1.length + 1)) := by
  have hsplit := segmentFrom_append_stop none 0 body
  rw [← segment] at hsplit
  generalize segment body = found at hsplit ⊢
  refine ⟨List.IsPrefix.trans ⟨_, hsplit⟩ h, fun d rest hstop => Text.prefix_drop_add h ?_⟩
  rw [hstop] at hsplit
  simp [← hsplit]

theorem enter_placedIn {child : Frame} {header inside : Text} {entered : Sheet}
    (hsheet : sheet.PlacedIn masked) (hheader : header <+: masked.drop frame.offset)
    (hinside : inside <+: masked.drop (frame.offset + header.length + 1))
    (h : enter sheet frame header inside = some (child, entered)) :
    child.Within masked ∧ entered.PlacedIn masked := by
  unfold enter at h
  simp only at h
  split at h
  · cases h
  · split at h
    · split at h
      · cases h
      · obtain ⟨rfl, rfl⟩ := Prod.mk.inj (Option.some.inj h)
        exact ⟨hinside, hsheet⟩
    · obtain ⟨rfl, rfl⟩ := Prod.mk.inj (Option.some.inj h)
      obtain ⟨spaces, -, hspaces⟩ := Text.trimRight_append header
      refine ⟨hinside, hsheet.addRule ⟨?_, fun _ hd => by cases hd⟩⟩
      exact List.IsPrefix.trans ⟨spaces, hspaces⟩ hheader

/-- A step leaves open blocks that stand in the text, and adds what stands there. -/
theorem step_placedIn (pairs : List (Nat × Nat)) (hframe : frame.Within masked)
    (hsheet : sheet.PlacedIn masked) :
    (∀ next ∈ (step pairs frame sheet).1, next.Within masked) ∧
      (step pairs frame sheet).2.PlacedIn masked := by
  have hbody : frame.body.dropWhile isSpace <+:
      masked.drop (frame.offset + (frame.body.takeWhile isSpace).length) :=
    Text.prefix_drop_add hframe ⟨[], by rw [Text.drop_length_takeWhile, List.append_nil]⟩
  obtain ⟨hheader, hbehind⟩ := segment_placed hbody
  unfold step
  simp only
  split
  · exact ⟨fun next h => (List.not_mem_nil h).elim, hsheet⟩
  · split
    · exact ⟨fun next h => (List.not_mem_nil h).elim, hsheet.addSegment hheader⟩
    · rename_i rest hstop
      have hrest := hbehind '{' rest hstop
      -- the frame goes on behind the brace that closes the block
      have hresume : ∀ n, rest.drop (n + 1) <+: masked.drop (frame.offset +
          (frame.body.takeWhile isSpace).length +
            (segment (frame.body.dropWhile isSpace)).1.length + n + 2) := by
        intro n
        have hn := Text.prefix_drop_add hrest (List.prefix_refl (rest.drop (n + 1)))
        rwa [← Nat.add_assoc, ← Nat.add_assoc, Nat.add_right_comm _ 1 n] at hn
      split
      · rename_i child entered henter
        obtain ⟨hchild, hentered⟩ := enter_placedIn hsheet hheader
          ((List.take_prefix _ rest).trans hrest) henter
        refine ⟨List.forall_mem_cons.mpr ⟨hchild, List.forall_mem_singleton.mpr ?_⟩, hentered⟩
        exact hresume _
      · exact ⟨List.forall_mem_singleton.mpr (hresume _), hsheet⟩
    · rename_i d rest _ hstop
      refine ⟨List.forall_mem_singleton.mpr ?_, hsheet.addSegment hheader⟩
      exact hbehind d rest hstop

/-- The walk adds only what stands in the text. -/
theorem walk_placedIn {frames : List Frame} (hframes : ∀ frame ∈ frames, frame.Within masked)
    (hsheet : sheet.PlacedIn masked) : (walk pairs frames sheet).PlacedIn masked := by
  fun_induction walk pairs frames sheet with
  | case1 sheet => exact hsheet
  | case2 sheet frame frames ih =>
    obtain ⟨hframe, hframes⟩ := List.forall_mem_cons.mp hframes
    obtain ⟨hnext, hadded⟩ := step_placedIn pairs hframe hsheet
    exact ih (List.forall_mem_append.mpr ⟨hnext, hframes⟩) hadded

end Walk

/-- The rules of a style text stand in its masked form. -/
theorem ofText_placedIn (source : Text) : (ofText source).PlacedIn (Comment.maskStyle source) := by
  refine walk_placedIn (List.forall_mem_singleton.mpr ?_) fun rule hrule => by cases hrule
  exact List.prefix_refl _

end Sheet

/-! ## Overrides -/

namespace StyleOverride

deriving instance ReflBEq, LawfulBEq for Key

/-- An occurrence belongs to a declaration of a rule. -/
theorem mem_occurrences {blocks : List (StyleRegion × Sheet)} {key : Key} {found : Occurrence}
    (h : (key, found) ∈ occurrences blocks) :
    ∃ block ∈ blocks, ∃ rule ∈ block.2.rules, ∃ declaration ∈ rule.declarations,
      key.property = declaration.property ∧
      found.offset = block.1.span.bodyStart + declaration.offset := by
  obtain ⟨block, hblock, h⟩ := List.mem_flatMap.mp h
  obtain ⟨rule, hrule, h⟩ := List.mem_flatMap.mp h
  obtain ⟨declaration, hdeclaration, h⟩ := List.mem_flatMap.mp h
  obtain ⟨⟨part, relative⟩, -, heq⟩ := List.mem_map.mp h
  obtain ⟨rfl, rfl⟩ := Prod.mk.inj heq
  exact ⟨block, hblock, rule, hrule, declaration, hdeclaration, rfl, rfl⟩

theorem mem_group {found : List (Key × Occurrence)} {key : Key} {member : Occurrence}
    (h : member ∈ group found key) : (key, member) ∈ found := by
  obtain ⟨⟨other, occurrence⟩, hmem, rfl⟩ := List.mem_map.mp (List.mem_mergeSort.mp h)
  obtain ⟨hfound, hkey⟩ := List.mem_filter.mp hmem
  exact eq_of_beq hkey ▸ hfound

/-- An override is read off two occurrences of one key. -/
theorem mem_findAll {index : LineIndex} {blocks : List (StyleRegion × Sheet)}
    {override : StyleOverride} (h : override ∈ findAll index blocks) :
    ∃ key previous current, (key, previous) ∈ occurrences blocks ∧
      (key, current) ∈ occurrences blocks ∧ override.property = key.property ∧
      override.position = index.position current.offset ∧
      override.previous = index.position previous.offset := by
  obtain ⟨placed, hplaced, rfl⟩ := List.mem_map.mp h
  obtain ⟨key, -, hgroup⟩ := List.mem_flatMap.mp (List.mem_mergeSort.mp hplaced)
  obtain ⟨⟨previous, current⟩, hpair, rfl⟩ := List.mem_map.mp hgroup
  obtain ⟨hprevious, hcurrent⟩ := List.of_mem_zip hpair
  exact ⟨key, previous, current, mem_group hprevious, mem_group (List.mem_of_mem_drop hcurrent),
    rfl, rfl, rfl⟩

end StyleOverride

end ComponentAudit
