import ComponentAudit.Proofs.Style.Nesting

/-! # Reading a text further down

The same text further down in a style sheet is read the same: every offset grows by the distance, and
the places of rules by the number of rules in front. So a walk over relocated blocks, behind what was
read before, adds the relocated sheet (`walk_relocate`). All that the walk knows of the rest of the
text are the pairs of braces, and those have to be relocated as far as the blocks reach. -/

namespace ComponentAudit

/-- The declaration some distance further down. -/
def Declaration.relocate (distance : Nat) (declaration : Declaration) : Declaration :=
  { declaration with offset := declaration.offset + distance }

/-- The statement some distance further down. -/
def Statement.relocate (distance : Nat) (statement : Statement) : Statement :=
  { statement with offset := statement.offset + distance }

/-- The rule some distance further down, in a sheet with some more rules in front. -/
def Rule.relocate (distance places : Nat) (rule : Rule) : Rule :=
  { rule with
    offset := rule.offset + distance
    enclosing := rule.enclosing.map (· + places)
    declarations := rule.declarations.map (Declaration.relocate distance) }

theorem Declaration.ofSegment?_add (offset distance : Nat) (segment : Text) :
    ofSegment? (offset + distance) segment = (ofSegment? offset segment).map (relocate distance) := by
  unfold ofSegment?
  cases Text.cut? ":" segment with
  | none => rfl
  | some cut =>
    simp only [Option.bind_eq_bind, Option.bind_some]
    split
    · rfl
    · simp only [Option.map_some, relocate, Nat.add_right_comm]

namespace Sheet

/-- The open block some distance further down, in a sheet with some more rules in front. -/
def Frame.relocate (distance places : Nat) (frame : Frame) : Frame :=
  { frame with
    offset := frame.offset + distance
    enclosing := frame.enclosing.map (· + places) }

/-- A sheet and behind it another one, whose text starts at a distance. -/
def followedBy (sheet : Sheet) (distance : Nat) (later : Sheet) : Sheet where
  rules := sheet.rules ++ later.rules.map (Rule.relocate distance sheet.rules.length)
  statements := sheet.statements ++ later.statements.map (Statement.relocate distance)

section Relocation

variable {sheet later : Sheet} {distance : Nat} {frame : Frame}

theorem followedBy_empty (sheet : Sheet) (distance : Nat) : sheet.followedBy distance {} = sheet := by
  simp [followedBy]

theorem length_followedBy : (sheet.followedBy distance later).rules.length =
    later.rules.length + sheet.rules.length := by
  rw [followedBy, List.length_append, List.length_map, Nat.add_comm]

/-! ## One operation -/

theorem addRule_relocate (rule : Rule) :
    (sheet.followedBy distance later).addRule (rule.relocate distance sheet.rules.length) =
      sheet.followedBy distance (later.addRule rule) := by
  simp [followedBy, addRule]

theorem addStatement_relocate (statement : Statement) :
    (sheet.followedBy distance later).addStatement (statement.relocate distance) =
      sheet.followedBy distance (later.addStatement statement) := by
  simp [followedBy, addStatement]

theorem modify_append_map {α β : Type} (front : List β) {read : α → β} {f : β → β} {g : α → α}
    (h : ∀ a, f (read a) = read (g a)) (place : Nat) (l : List α) :
    (front ++ l.map read).modify (place + front.length) f = front ++ (l.modify place g).map read := by
  induction front with
  | nil =>
    rw [List.nil_append, List.nil_append, List.length_nil, Nat.add_zero]
    induction l generalizing place with
    | nil => simp
    | cons a l ih =>
      cases place with
      | zero => simp [h]
      | succ place => simp [ih]
  | cons b front ih =>
    rw [List.cons_append, List.length_cons, ← Nat.add_assoc, List.modify_succ_cons, ih,
      List.cons_append]

theorem addDeclaration_relocate (place : Nat) (declaration : Declaration) :
    (sheet.followedBy distance later).addDeclaration (place + sheet.rules.length)
        (declaration.relocate distance) =
      sheet.followedBy distance (later.addDeclaration place declaration) := by
  simp only [followedBy, addDeclaration, Sheet.mk.injEq, and_true]
  refine modify_append_map sheet.rules (fun rule => ?_) place later.rules
  simp only [Rule.relocate, List.map_append, List.map_cons, List.map_nil]

theorem addSegment_relocate (frame : Frame) (segment : Text) :
    (sheet.followedBy distance later).addSegment (frame.relocate distance sheet.rules.length) segment =
      sheet.followedBy distance (later.addSegment frame segment) := by
  unfold addSegment
  dsimp only [Frame.relocate]
  rw [Declaration.ofSegment?_add]
  split
  · exact addStatement_relocate ⟨_, _, frame.offset⟩
  · cases frame.enclosing with
    | nil => rfl
    | cons parent more =>
      cases Declaration.ofSegment? frame.offset segment with
      | none => rfl
      | some declaration => exact addDeclaration_relocate parent declaration

/-- A block further down is entered as it is entered here. -/
theorem enter_relocate (frame : Frame) (header inside : Text) :
    enter (sheet.followedBy distance later) (frame.relocate distance sheet.rules.length) header inside =
      (enter later frame header inside).map fun entered =>
        (entered.1.relocate distance sheet.rules.length, sheet.followedBy distance entered.2) := by
  have hoffset : frame.offset + distance + header.length + 1 =
      frame.offset + header.length + 1 + distance := by omega
  unfold enter
  dsimp only [Frame.relocate]
  rw [hoffset]
  split
  · rfl
  · split
    · split <;> rfl
    · rw [Option.map_some, ← addRule_relocate, length_followedBy]
      rfl

/-! ## A step -/

/-- The pairs of braces in front of a bound are found some distance further down. -/
def Relocated (distance bound : Nat) (pairs further : List (Nat × Nat)) : Prop :=
  ∀ opener < bound, further.lookup (opener + distance) = (pairs.lookup opener).map (· + distance)

/-- An open block does not reach over a bound. -/
def Frame.EndsBy (bound : Nat) (frame : Frame) : Prop :=
  frame.body ≠ [] → frame.offset + frame.body.length ≤ bound

theorem Frame.EndsBy.ink {bound : Nat} (h : frame.EndsBy bound) : frame.ink.EndsBy bound := by
  intro hbody
  have hlength := congrArg List.length
    (List.takeWhile_append_dropWhile (p := isSpace) (l := frame.body))
  rw [List.length_append] at hlength
  have hend := h fun hempty => hbody (by rw [Frame.ink, hempty]; rfl)
  dsimp only [Frame.ink]
  omega

/-- A step leaves no block that reaches further than the one it works on. -/
theorem endsBy_step {bound : Nat} (pairs : List (Nat × Nat)) (sheet : Sheet)
    (h : frame.EndsBy bound) : ∀ next ∈ (step pairs frame sheet).1, next.EndsBy bound := by
  have hink := h.ink
  have houtcome := step_outcome pairs frame sheet
  generalize (step pairs frame sheet).1 = frames at houtcome ⊢
  generalize (step pairs frame sheet).2 = added at houtcome
  have hbehind : ∀ {header rest : Text} {d : Char} (size : Nat), frame.ink.body ≠ [] →
      Sheet.segment frame.ink.body = (header, some (d, rest)) →
      (frame.ink.behind header rest size).EndsBy bound := by
    intro header rest d size hbody hsegment hrest
    have hlength := length_of_segment hsegment
    have hpos := List.length_pos_iff.mpr hrest
    have hend := hink hbody
    simp only [Frame.behind, List.length_drop] at hpos ⊢
    omega
  cases houtcome with
  | done => exact fun _ hnext => (List.not_mem_nil hnext).elim
  | last => exact fun _ hnext => (List.not_mem_nil hnext).elim
  | segment hbody _ hsegment =>
    have hlength := length_of_segment hsegment
    have hend := hink hbody
    refine List.forall_mem_singleton.mpr fun _ => ?_
    dsimp only [Frame.past]
    omega
  | skipped hbody hsegment => exact List.forall_mem_singleton.mpr (hbehind _ hbody hsegment)
  | @entered header rest size child _ hbody hsegment _ henter =>
    have hlength := length_of_segment hsegment
    have hend := hink hbody
    obtain ⟨hoffset, hinside, -⟩ := enter_cases henter
    refine List.forall_mem_cons.mpr ⟨fun _ => ?_, List.forall_mem_singleton.mpr
      (hbehind _ hbody hsegment)⟩
    rw [hoffset, hinside, List.length_take]
    omega

theorem insideLength_relocate {bound opener : Nat} {pairs further : List (Nat × Nat)}
    (hpairs : Relocated distance bound pairs further) (hopener : opener < bound) (rest : Text) :
    insideLength further (opener + distance) rest = insideLength pairs opener rest := by
  rw [insideLength, insideLength, hpairs opener hopener]
  cases pairs.lookup opener with
  | none => rfl
  | some closer =>
    dsimp only [Option.map_some]
    rw [Nat.add_sub_add_right]

theorem ink_relocate (frame : Frame) (distance places : Nat) :
    (frame.relocate distance places).ink = frame.ink.relocate distance places := by
  simp only [Frame.ink, Frame.relocate, Nat.add_right_comm]

/-- What a step can do here, it can do further down. -/
theorem Outcome.relocate {bound : Nat} {pairs further : List (Nat × Nat)} {next : List Frame}
    {added : Sheet} (hpairs : Relocated distance bound pairs further) (h : frame.EndsBy bound)
    (houtcome : Outcome pairs frame later next added) :
    Outcome further (frame.relocate distance sheet.rules.length) (sheet.followedBy distance later)
      (next.map (Frame.relocate distance sheet.rules.length)) (sheet.followedBy distance added) := by
  have hbehind : ∀ header rest size,
      (frame.behind header rest size).relocate distance sheet.rules.length =
        (frame.relocate distance sheet.rules.length).behind header rest size := by
    intro header rest size
    simp only [Frame.behind, Frame.relocate, Nat.add_right_comm]
  have hsame : ∀ {header rest : Text}, frame.body ≠ [] →
      Sheet.segment frame.body = (header, some ('{', rest)) →
      insideLength pairs (frame.offset + header.length) rest =
        insideLength further (frame.offset + distance + header.length) rest := by
    intro header rest hbody hsegment
    have hlength := length_of_segment hsegment
    have hend := h hbody
    rw [Nat.add_right_comm, insideLength_relocate hpairs (by omega)]
  cases houtcome with
  | done hbody => exact .done hbody
  | last hbody hsegment =>
    rw [← addSegment_relocate]
    exact .last hbody hsegment
  | @segment header rest _ hbody hd hsegment =>
    have hpast : (frame.past header rest).relocate distance sheet.rules.length =
        (frame.relocate distance sheet.rules.length).past header rest := by
      simp only [Frame.past, Frame.relocate, Nat.add_right_comm]
    rw [← addSegment_relocate, List.map_singleton, hpast]
    exact .segment hbody hd hsegment
  | skipped hbody hsegment hsize henter =>
    rw [List.map_singleton, hbehind]
    refine .skipped hbody hsegment (hsize.trans (hsame hbody hsegment)) ?_
    rw [enter_relocate, henter, Option.map_none]
  | entered hbody hsegment hsize henter =>
    rw [List.map_cons, List.map_singleton, hbehind]
    refine .entered hbody hsegment (hsize.trans (hsame hbody hsegment)) ?_
    rw [enter_relocate, henter, Option.map_some]

/-- A step can do one thing only. -/
theorem Outcome.unique {pairs : List (Nat × Nat)} {next other : List Frame} {added opened : Sheet}
    (h : Outcome pairs frame sheet next added) (hother : Outcome pairs frame sheet other opened) :
    next = other ∧ added = opened := by
  cases h <;> cases hother <;> grind

/-- What a step can do, it does. -/
theorem step_eq_of_outcome {pairs : List (Nat × Nat)} {next : List Frame} {added : Sheet}
    (h : Outcome pairs frame.ink sheet next added) : step pairs frame sheet = (next, added) := by
  obtain ⟨hnext, hadded⟩ := (step_outcome pairs frame sheet).unique h
  exact Prod.ext hnext hadded

/-- A step further down is the step here, relocated. -/
theorem step_relocate {bound : Nat} {pairs further : List (Nat × Nat)}
    (hpairs : Relocated distance bound pairs further) (h : frame.EndsBy bound) :
    step further (frame.relocate distance sheet.rules.length) (sheet.followedBy distance later) =
      ((step pairs frame later).1.map (Frame.relocate distance sheet.rules.length),
        sheet.followedBy distance (step pairs frame later).2) := by
  refine step_eq_of_outcome ?_
  rw [ink_relocate]
  exact (step_outcome pairs frame later).relocate hpairs h.ink

/-- A walk further down is the walk here, relocated. -/
theorem walk_relocate {bound : Nat} {pairs further : List (Nat × Nat)} {frames : List Frame}
    (hpairs : Relocated distance bound pairs further) (h : ∀ frame ∈ frames, frame.EndsBy bound) :
    walk further (frames.map (Frame.relocate distance sheet.rules.length))
        (sheet.followedBy distance later) =
      sheet.followedBy distance (walk pairs frames later) := by
  fun_induction walk pairs frames later with
  | case1 later => rw [List.map_nil, walk]
  | case2 later frame frames ih =>
    obtain ⟨hframe, hframes⟩ := List.forall_mem_cons.mp h
    rw [List.map_cons, walk, step_relocate hpairs hframe]
    dsimp only
    rw [← List.map_append]
    exact ih (List.forall_mem_append.mpr ⟨endsBy_step pairs later hframe, hframes⟩)

theorem relocate_zero (frame : Frame) : frame.relocate 0 0 = frame := by
  simp [Frame.relocate]

theorem followedBy_zero (later : Sheet) : ({} : Sheet).followedBy 0 later = later := by
  have hdeclaration : Declaration.relocate 0 = id := rfl
  have hstatement : Statement.relocate 0 = id := rfl
  have hrule : Rule.relocate 0 0 = id := by
    funext rule
    simp [Rule.relocate, hdeclaration]
  simp [followedBy, hrule, hstatement]

/-- A walk looks up only the braces that stand in its blocks. -/
theorem walk_congr {bound : Nat} {pairs further : List (Nat × Nat)} {frames : List Frame}
    (hpairs : ∀ opener < bound, further.lookup opener = pairs.lookup opener)
    (h : ∀ frame ∈ frames, frame.EndsBy bound) :
    walk further frames later = walk pairs frames later := by
  have hrelocated : Relocated 0 bound pairs further := by
    intro opener hopener
    rw [Nat.add_zero, hpairs opener hopener]
    simp
  have hwalk := @walk_relocate {} later 0 bound pairs further frames hrelocated h
  have hframes : frames.map (Frame.relocate 0 0) = frames :=
    (List.map_congr_left fun frame _ => relocate_zero frame).trans (List.map_id' frames)
  rwa [followedBy_zero, followedBy_zero, List.length_nil, hframes] at hwalk

/-- A walk works off the blocks above before those below. -/
theorem walk_append (pairs : List (Nat × Nat)) (frames more : List Frame) (sheet : Sheet) :
    walk pairs (frames ++ more) sheet = walk pairs more (walk pairs frames sheet) := by
  fun_induction walk pairs frames sheet with
  | case1 sheet => rfl
  | case2 sheet frame frames ih => rw [List.cons_append, walk, ← List.append_assoc, ih]

end Relocation

end Sheet

end ComponentAudit
