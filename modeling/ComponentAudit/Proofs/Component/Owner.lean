import ComponentAudit.Component.Analysis
import ComponentAudit.Proofs.Script.Name
import ComponentAudit.Proofs.Text.Mask

/-! # Scripts own what they declare

The elements of one kind lie one behind the other, so an offset is in the body of at most one script,
and a search for that script finds it. What a script declares lies in its body: masking comments keeps
the length, and a name is found inside the masked body. -/

namespace ComponentAudit

/-- The parts of an element follow one another. -/
structure ElementSpan.Ordered (span : ElementSpan) : Prop where
  tag : span.elementStart ≤ span.bodyStart
  body : span.bodyStart ≤ span.bodyEnd
  close : span.bodyEnd ≤ span.elementEnd

theorem elementAt_ordered {tag t : Text} {offset : Nat} {span : ElementSpan}
    (h : elementAt tag offset t = .ok span) : span.Ordered ∧ span.elementStart = offset := by
  unfold elementAt at h
  split at h
  · cases h
  · simp only at h
    split at h
    · cases h
    · obtain rfl := Except.ok.inj h
      exact ⟨⟨by simp only; omega, by simp only; omega, by simp only; omega⟩, rfl⟩

/-- Elements are found from left to right, each behind the one before it. -/
theorem elementsFrom_ordered (tag : Text) (covered offset : Nat) (t : Text) :
    (∀ span ∈ (elementsFrom tag covered offset t).spans,
      span.Ordered ∧ offset + covered ≤ span.elementStart) ∧
    (elementsFrom tag covered offset t).spans.Pairwise fun a b => a.elementEnd ≤ b.elementStart := by
  induction t generalizing covered offset with
  | nil => exact ⟨fun _ h => (List.not_mem_nil h).elim, List.Pairwise.nil⟩
  | cons c t ih =>
    cases covered with
    | succ covered =>
      obtain ⟨hall, hpairs⟩ := ih covered (offset + 1)
      refine ⟨fun span hspan => ⟨(hall span hspan).1, ?_⟩, hpairs⟩
      have := (hall span hspan).2
      omega
    | zero =>
      rw [elementsFrom]
      split
      · split
        · exact ⟨fun _ h => (List.not_mem_nil h).elim, List.Pairwise.nil⟩
        · rename_i span hat
          obtain ⟨hordered, hstart⟩ := elementAt_ordered hat
          obtain ⟨hall, hpairs⟩ := ih (span.elementEnd - offset - 1) (offset + 1)
          have hreach := hordered.tag
          have hbody := hordered.body
          have hclose := hordered.close
          refine ⟨fun other hother => ?_, List.pairwise_cons.mpr ⟨fun other hother => ?_, hpairs⟩⟩
          · rcases List.mem_cons.mp hother with rfl | hother
            · exact ⟨hordered, by omega⟩
            · have hbehind := (hall other hother).2
              exact ⟨(hall other hother).1, by omega⟩
          · have hbehind := (hall other hother).2
            omega
      · obtain ⟨hall, hpairs⟩ := ih 0 (offset + 1)
        refine ⟨fun span hspan => ⟨(hall span hspan).1, ?_⟩, hpairs⟩
        have := (hall span hspan).2
        omega

/-- An offset lies in the body of a script. -/
def ScriptRegion.Holds (region : ScriptRegion) (offset : Nat) : Prop :=
  region.span.bodyStart ≤ offset ∧ offset < region.span.bodyEnd

theorem filter_of_pairwise {α : Type} {p : α → Bool} {l : List α}
    (hl : l.Pairwise fun a b => p a = true → p b = false) {a : α} (ha : a ∈ l) (hp : p a = true) :
    l.filter p = [a] := by
  induction l with
  | nil => cases ha
  | cons b l ih =>
    obtain ⟨hb, hl⟩ := List.pairwise_cons.mp hl
    rcases List.mem_cons.mp ha with rfl | ha
    · have hnone : l.filter p = [] :=
        List.filter_eq_nil_iff.mpr fun c hc => by simp [hb c hc hp]
      rw [List.filter_cons_of_pos hp, hnone]
    · have hne : ¬ p b = true := fun hpb => by
        rw [hb a ha hpb] at hp
        cases hp
      rw [List.filter_cons_of_neg hne, ih hl ha]

/-- A script that holds an offset is the only one. -/
theorem filter_scripts_of_holds {t : Text} {region : ScriptRegion} {offset : Nat}
    (hmem : region ∈ (Regions.ofText t).scripts) (hholds : region.Holds offset) :
    ((Regions.ofText t).scripts.filter fun region =>
      region.span.bodyStart ≤ offset && offset < region.span.bodyEnd) = [region] := by
  obtain ⟨hordered, hpairs⟩ := elementsFrom_ordered "script" 0 0 t
  refine filter_of_pairwise ?_ hmem (by simpa [ScriptRegion.Holds] using hholds)
  rw [Regions.ofText, List.pairwise_map]
  refine List.Pairwise.imp_of_mem (fun {a b} ha hb hab => ?_) hpairs
  have hafter := (hordered a ha).1
  have hbefore := (hordered b hb).1
  have hclose := hafter.close
  have htag := hbefore.tag
  intro hin
  have hinside : offset < a.bodyEnd := of_decide_eq_true (Bool.and_eq_true_iff.mp hin).2
  have hbehind : ¬ b.bodyStart ≤ offset := by omega
  exact Bool.and_eq_false_iff.mpr (.inl (decide_eq_false hbehind))

/-- The script that holds an offset is the one that owns it. -/
theorem owningScript?_of_holds {t : Text} {region : ScriptRegion} {offset : Nat}
    (hmem : region ∈ (Regions.ofText t).scripts) (hholds : region.Holds offset) :
    owningScript? (Regions.ofText t).scripts offset = some region := by
  rw [owningScript?, ← List.head?_filter, filter_scripts_of_holds hmem hholds]
  rfl

/-! ## What a script declares -/

/-- An offset inside a masked body is held by the script. -/
theorem ScriptRegion.holds_of_lt {region : ScriptRegion} {t : Text} {offset : Nat}
    (h : offset < (Comment.maskScript (region.span.body t)).length) :
    region.Holds (region.span.bodyStart + offset) := by
  rw [(Comment.maskOf_maskScript _).length_eq, ElementSpan.body, Text.slice, List.length_take] at h
  exact ⟨by omega, by omega⟩

namespace Analysis

variable {source path : Text} {options : Options}

/-- A variable has a name and lies in a script. -/
theorem read_variable {found : Variable} (h : found ∈ (read source path options).2.scriptVariables) :
    IsName found.name ∧ ∃ region ∈ (Regions.ofText source).scripts, region.Holds found.nameOffset := by
  obtain ⟨declared, hdeclared, hfound⟩ := List.mem_flatMap.mp h
  obtain ⟨region, hregion, rfl⟩ := List.mem_map.mp hdeclared
  obtain ⟨inScript, hin, rfl⟩ := List.mem_map.mp hfound
  have hnamed := Variable.namedAt_findAll hin
  exact ⟨hnamed.1, region, hregion, ScriptRegion.holds_of_lt hnamed.lt.2⟩

theorem read_function {found : Function} (h : found ∈ (read source path options).2.functions) :
    IsName found.name := by
  obtain ⟨declared, hdeclared, hfound⟩ := List.mem_flatMap.mp h
  obtain ⟨region, _, rfl⟩ := List.mem_map.mp hdeclared
  obtain ⟨inScript, hin, rfl⟩ := List.mem_map.mp hfound
  exact (Function.namedAt_findAll hin).1

theorem read_import {found : Import} (h : found ∈ (read source path options).2.imports)
    {symbol : Text} (hsymbol : symbol ∈ found.symbols) : IsName symbol := by
  obtain ⟨declared, hdeclared, hfound⟩ := List.mem_flatMap.mp h
  obtain ⟨region, _, rfl⟩ := List.mem_map.mp hdeclared
  obtain ⟨inScript, hin, rfl⟩ := List.mem_map.mp hfound
  exact Import.isName_findAll hin hsymbol

/-- A component bears a name that an import binds. -/
theorem read_component {found : ComponentImport}
    (h : found ∈ (read source path options).2.componentImports) : IsName found.componentName := by
  obtain ⟨statement, hstatement, hfound⟩ := List.mem_filterMap.mp h
  unfold ComponentImport.ofImport? at hfound
  split at hfound
  · cases hfound
  · rename_i symbol symbols hsymbols
    split at hfound
    · obtain rfl := Option.some.inj hfound
      exact @read_import source path options statement hstatement symbol
        (hsymbols ▸ List.mem_cons_self)
    · cases hfound

end Analysis

end ComponentAudit
