import ComponentAudit.Component.Analysis

/-! # Analyses moved down

What an analysis becomes if its file gets empty lines in front: every position is that many lines
further down, every offset that many characters further on, and the file has that many lines more.
Moving down twice is moving down once by the sum. -/

namespace ComponentAudit

/-- A position further down. -/
def Position.shift (lines : Nat) (position : Position) : Position :=
  { position with line := position.line + lines }

def Usage.shift (lines : Nat) (usage : Usage) : Usage :=
  { usage with position := usage.position.shift lines }

/-- A span further on. -/
def ElementSpan.shift (lines : Nat) (span : ElementSpan) : ElementSpan where
  elementStart := span.elementStart + lines
  bodyStart := span.bodyStart + lines
  bodyEnd := span.bodyEnd + lines
  elementEnd := span.elementEnd + lines

def ScriptRegion.shift (lines : Nat) (region : ScriptRegion) : ScriptRegion :=
  { region with span := region.span.shift lines }

def StyleRegion.shift (lines : Nat) (region : StyleRegion) : StyleRegion :=
  { region with
    span := region.span.shift lines
    startPosition := region.startPosition.map (·.shift lines)
    endPosition := region.endPosition.map (·.shift lines) }

def StyleImport.shift (lines : Nat) (found : StyleImport) : StyleImport :=
  { found with position := found.position.shift lines }

def Variable.shift (lines : Nat) (found : Variable) : Variable :=
  { found with
    position := found.position.shift lines
    offset := found.offset + lines
    nameOffset := found.nameOffset + lines
    usages := found.usages.map (·.shift lines) }

def Function.shift (lines : Nat) (found : Function) : Function :=
  { found with
    position := found.position.shift lines
    offset := found.offset + lines
    usages := found.usages.map (·.shift lines) }

def Import.shift (lines : Nat) (found : Import) : Import :=
  { found with
    position := found.position.shift lines
    offset := found.offset + lines
    endOffset := found.endOffset + lines
    usages := found.usages.map (·.shift lines) }

def StyleSelector.shift (lines : Nat) (selector : StyleSelector) : StyleSelector :=
  { selector with
    position := selector.position.shift lines
    htmlUsages := selector.htmlUsages.map (·.shift lines) }

def StyleOverride.shift (lines : Nat) (override : StyleOverride) : StyleOverride :=
  { override with
    position := override.position.shift lines
    previous := override.previous.shift lines }

def ComponentImport.shift (lines : Nat) (component : ComponentImport) : ComponentImport :=
  { component with
    position := component.position.shift lines
    usages := component.usages.map (·.shift lines) }

def ComponentUsage.shift (lines : Nat) (usage : ComponentUsage) : ComponentUsage :=
  { usage with position := usage.position.shift lines }

/-- The counter of the lines of a file. -/
def Tally.lineCounter : Text := "total_lines"

/-- Counters of a file with more lines; all but the number of lines stay. -/
def Tally.addLines (lines : Nat) (tally : Tally) : Tally :=
  tally.map fun entry =>
    (entry.1, if entry.1 = Tally.lineCounter then entry.2 + lines else entry.2)

theorem Tally.addLines_cons_of_ne {name : Text} (h : name ≠ lineCounter) (lines : Nat) (value : Int)
    (tally : Tally) : Tally.addLines lines ((name, value) :: tally) = (name, value) :: tally.addLines lines := by
  simp only [addLines, List.map_cons, if_neg h]

/-- An analysis moved down as a whole. -/
def Analysis.shift (lines : Nat) (analysis : Analysis) : Analysis where
  filePath := analysis.filePath
  scripts := analysis.scripts.map (·.shift lines)
  styles := analysis.styles.map (·.shift lines)
  styleImports := analysis.styleImports.map (·.shift lines)
  scriptVariables := analysis.scriptVariables.map (·.shift lines)
  imports := analysis.imports.map (·.shift lines)
  functions := analysis.functions.map (·.shift lines)
  selectors := analysis.selectors.map (·.shift lines)
  overrides := analysis.overrides.map (·.shift lines)
  componentImports := analysis.componentImports.map (·.shift lines)
  componentUsages := analysis.componentUsages.map (·.shift lines)
  statistics := analysis.statistics.addLines lines

section Composition
variable (j k : Nat)

@[simp] theorem Position.shift_shift (p : Position) : (p.shift j).shift k = p.shift (j + k) := by
  simp [Position.shift, Nat.add_assoc]

@[simp] theorem Usage.shift_shift (u : Usage) : (u.shift j).shift k = u.shift (j + k) := by
  simp [Usage.shift]

@[simp] theorem ElementSpan.shift_shift (s : ElementSpan) : (s.shift j).shift k = s.shift (j + k) := by
  simp [ElementSpan.shift, Nat.add_assoc]

theorem ScriptRegion.shift_shift (r : ScriptRegion) : (r.shift j).shift k = r.shift (j + k) := by
  simp [ScriptRegion.shift]

theorem StyleRegion.shift_shift (r : StyleRegion) : (r.shift j).shift k = r.shift (j + k) := by
  simp [StyleRegion.shift, Function.comp_def]

theorem StyleImport.shift_shift (i : StyleImport) : (i.shift j).shift k = i.shift (j + k) := by
  simp [StyleImport.shift]

theorem Variable.shift_shift (v : Variable) : (v.shift j).shift k = v.shift (j + k) := by
  simp [Variable.shift, Function.comp_def, Nat.add_assoc]

theorem Function.shift_shift (f : Function) : (f.shift j).shift k = f.shift (j + k) := by
  simp [Function.shift, Function.comp_def, Nat.add_assoc]

theorem Import.shift_shift (i : Import) : (i.shift j).shift k = i.shift (j + k) := by
  simp [Import.shift, Function.comp_def, Nat.add_assoc]

theorem StyleSelector.shift_shift (s : StyleSelector) : (s.shift j).shift k = s.shift (j + k) := by
  simp [StyleSelector.shift, Function.comp_def]

theorem StyleOverride.shift_shift (o : StyleOverride) : (o.shift j).shift k = o.shift (j + k) := by
  simp [StyleOverride.shift]

theorem ComponentImport.shift_shift (c : ComponentImport) :
    (c.shift j).shift k = c.shift (j + k) := by
  simp [ComponentImport.shift, Function.comp_def]

theorem ComponentUsage.shift_shift (u : ComponentUsage) : (u.shift j).shift k = u.shift (j + k) := by
  simp [ComponentUsage.shift]

theorem Tally.addLines_addLines (t : Tally) : (t.addLines j).addLines k = t.addLines (j + k) := by
  rw [Tally.addLines, Tally.addLines, Tally.addLines, List.map_map]
  refine List.map_congr_left fun entry _ => ?_
  by_cases h : entry.1 = Tally.lineCounter
  · simp only [Function.comp_apply, if_pos h, Int.natCast_add, Int.add_assoc]
  · simp only [Function.comp_apply, if_neg h]

theorem Analysis.shift_shift (a : Analysis) : (a.shift j).shift k = a.shift (j + k) := by
  simp only [Analysis.shift, List.map_map, Function.comp_def, ScriptRegion.shift_shift,
    StyleRegion.shift_shift, StyleImport.shift_shift, Variable.shift_shift, Function.shift_shift,
    Import.shift_shift, StyleSelector.shift_shift, StyleOverride.shift_shift,
    ComponentImport.shift_shift, ComponentUsage.shift_shift, Tally.addLines_addLines]

end Composition

theorem Usage.map_shift_zero (usages : List Usage) : usages.map (·.shift 0) = usages :=
  List.map_id usages

theorem Tally.addLines_zero (t : Tally) : t.addLines 0 = t := by
  have h : ∀ entry : Text × Int,
      (entry.1, if entry.1 = Tally.lineCounter then entry.2 + ((0 : Nat) : Int) else entry.2) =
        entry := by
    intro entry
    simp
  rw [Tally.addLines, List.map_congr_left fun entry _ => h entry, List.map_id']

/-- Moving down by nothing changes nothing. -/
theorem Analysis.shift_zero (a : Analysis) : a.shift 0 = a := by
  have hplace : ∀ p : Option Position, p.map (·.shift 0) = p := fun p => by cases p <;> rfl
  have hstyle : ∀ r : StyleRegion, r.shift 0 = r := fun r => by
    simp only [StyleRegion.shift, hplace]; rfl
  have hvariable : ∀ v : Variable, v.shift 0 = v := fun v => by
    simp only [Variable.shift, Usage.map_shift_zero]; rfl
  have hfunction : ∀ f : Function, f.shift 0 = f := fun f => by
    simp only [Function.shift, Usage.map_shift_zero]; rfl
  have himport : ∀ i : Import, i.shift 0 = i := fun i => by
    simp only [Import.shift, Usage.map_shift_zero]; rfl
  have hselector : ∀ s : StyleSelector, s.shift 0 = s := fun s => by
    simp only [StyleSelector.shift, Usage.map_shift_zero]; rfl
  have hcomponent : ∀ c : ComponentImport, c.shift 0 = c := fun c => by
    simp only [ComponentImport.shift, Usage.map_shift_zero]; rfl
  simp only [Analysis.shift, hstyle, hvariable, hfunction, himport, hselector, hcomponent,
    Tally.addLines_zero, List.map_id_fun']
  simp only [show ∀ l : List ScriptRegion, l.map (·.shift 0) = l from List.map_id,
    show ∀ l : List StyleImport, l.map (·.shift 0) = l from List.map_id,
    show ∀ l : List StyleOverride, l.map (·.shift 0) = l from List.map_id,
    show ∀ l : List ComponentUsage, l.map (·.shift 0) = l from List.map_id, id]

end ComponentAudit
