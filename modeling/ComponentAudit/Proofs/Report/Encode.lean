import ComponentAudit.Proofs.Component.Totals
import ComponentAudit.Proofs.Finding.Evidence
import ComponentAudit.Report.Encode

/-! # The values of analyses and findings

A JSON object keeps its members in order and may name one twice, and a reader that looks members up
by name would then lose one. The values of analyses and findings name none twice: the attributes of a
tag and the counters are the only members whose names come from data, and both are filled by inserting.
The value of an analysis leaves nothing out, so that different analyses have different values. -/

namespace ComponentAudit

/-- A value whose objects name each of their members once, so that a reader that keeps the members of
an object by name keeps them all. -/
inductive Json.Unambiguous : Json → Prop
  | null : Unambiguous .null
  | bool (b : Bool) : Unambiguous (.bool b)
  | int (n : Int) : Unambiguous (.int n)
  | decimal (m e : Int) : Unambiguous (.decimal m e)
  | nonFinite : Unambiguous .nonFinite
  | str (t : Text) : Unambiguous (.str t)
  | arr {items : List Json} (h : ∀ item ∈ items, Unambiguous item) : Unambiguous (.arr items)
  | obj {members : List (Text × Json)} (names : (members.map Prod.fst).Nodup)
      (h : ∀ member ∈ members, Unambiguous member.2) : Unambiguous (.obj members)

namespace Json

attribute [simp] Unambiguous.null Unambiguous.bool Unambiguous.int Unambiguous.str

@[simp] theorem unambiguous_nat (n : Nat) : (nat n).Unambiguous := .int n

@[simp] theorem unambiguous_arr {items : List Json} :
    (arr items).Unambiguous ↔ ∀ item ∈ items, item.Unambiguous := by
  refine ⟨fun h => ?_, .arr⟩
  cases h with
  | arr h => exact h

@[simp] theorem unambiguous_obj {members : List (Text × Json)} :
    (obj members).Unambiguous ↔
      (members.map Prod.fst).Nodup ∧ ∀ member ∈ members, member.2.Unambiguous := by
  refine ⟨fun h => ?_, fun h => .obj h.1 h.2⟩
  cases h with
  | obj names h => exact ⟨names, h⟩

theorem unambiguous_arr_map {α : Type} {encode : α → Json} {items : List α}
    (h : ∀ item ∈ items, (encode item).Unambiguous) : (arr (items.map encode)).Unambiguous :=
  .arr fun _ hmem => by
    obtain ⟨item, hitem, rfl⟩ := List.mem_map.mp hmem
    exact h item hitem

@[simp] theorem unambiguous_texts (items : List Text) : (texts items).Unambiguous := by
  simp [texts]

theorem unambiguous_obj_map {α : Type} {encode : α → Json}
    (hencode : ∀ value, (encode value).Unambiguous) {entries : List (Text × α)}
    (h : (entries.map Prod.fst).Nodup) :
    (obj (entries.map fun (name, value) => (name, encode value))).Unambiguous := by
  refine .obj ?_ fun member hmember => ?_
  · rw [List.map_map]
    exact h
  · obtain ⟨entry, -, rfl⟩ := List.mem_map.mp hmember
    exact hencode entry.2

@[simp] theorem unambiguous_ofOption (t : Option Text) : (ofOption .str t).Unambiguous := by
  cases t <;> simp [ofOption]

end Json

open Json

/-! ## Members are named once -/

@[simp] theorem Position.unambiguous_toJson (position : Position) : position.toJson.Unambiguous := by
  simp [toJson]

@[simp] theorem Usage.unambiguous_toJson (usage : Usage) : usage.toJson.Unambiguous := by
  simp [toJson]

@[simp] theorem unambiguous_usagesJson (usages : List Usage) : (usagesJson usages).Unambiguous := by
  simp [usagesJson]

theorem Attributes.unambiguous_toJson {attributes : Attributes}
    (h : (attributes.map Prod.fst).Nodup) : (Attributes.toJson attributes).Unambiguous :=
  unambiguous_obj_map .str h

theorem Tally.unambiguous_toJson {tally : Tally} (h : (tally.map Prod.fst).Nodup) :
    (Tally.toJson tally).Unambiguous :=
  unambiguous_obj_map .int h

theorem ScriptRegion.unambiguous_toJson {region : ScriptRegion}
    (h : (region.attributes.map Prod.fst).Nodup) : region.toJson.Unambiguous := by
  simp [toJson, ElementSpan.toMembers, concat, Attributes.unambiguous_toJson h]

theorem StyleRegion.unambiguous_toJson {region : StyleRegion}
    (h : (region.attributes.map Prod.fst).Nodup) : region.toJson.Unambiguous := by
  have hposition : ∀ position : Option Position, (ofOption Position.toJson position).Unambiguous := by
    rintro (_ | position) <;> simp [ofOption]
  simp [toJson, ElementSpan.toMembers, concat, Attributes.unambiguous_toJson h, hposition]

@[simp] theorem StyleImport.unambiguous_toJson (found : StyleImport) : found.toJson.Unambiguous := by
  simp [toJson]

@[simp] theorem Variable.unambiguous_toJson (found : Variable) : found.toJson.Unambiguous := by
  simp [toJson]

@[simp] theorem Import.unambiguous_toJson (found : Import) : found.toJson.Unambiguous := by
  simp [toJson]

@[simp] theorem Function.unambiguous_toJson (found : Function) : found.toJson.Unambiguous := by
  simp [toJson]

@[simp] theorem StyleSelector.unambiguous_toJson (found : StyleSelector) :
    found.toJson.Unambiguous := by
  simp [toJson]

@[simp] theorem StyleOverride.unambiguous_toJson (found : StyleOverride) :
    found.toJson.Unambiguous := by
  simp [toJson]

@[simp] theorem ComponentImport.unambiguous_toMembers (found : ComponentImport) :
    (obj found.toMembers).Unambiguous := by
  simp [toMembers]

@[simp] theorem ComponentUsage.unambiguous_toJson (found : ComponentUsage) :
    found.toJson.Unambiguous := by
  simp [toJson]

@[simp] theorem Findings.unambiguous_toJson (findings : Findings) : findings.toJson.Unambiguous := by
  simp [toJson, concat, Position.toMembers]

/-- An analysis whose named lists hold each name once. -/
structure Analysis.NamesOnce (analysis : Analysis) : Prop where
  scripts : ∀ region ∈ analysis.scripts, (region.attributes.map Prod.fst).Nodup
  styles : ∀ region ∈ analysis.styles, (region.attributes.map Prod.fst).Nodup
  statistics : (analysis.statistics.map Prod.fst).Nodup

theorem Analysis.NamesOnce.unambiguous_toJson {analysis : Analysis} (h : analysis.NamesOnce) :
    analysis.toJson.Unambiguous := by
  have hscripts : ∀ region ∈ analysis.scripts, region.toJson.Unambiguous :=
    fun region hregion => ScriptRegion.unambiguous_toJson (h.scripts region hregion)
  have hstyles : ∀ region ∈ analysis.styles, region.toJson.Unambiguous :=
    fun region hregion => StyleRegion.unambiguous_toJson (h.styles region hregion)
  refine .obj (by simp) ?_
  simp only [List.forall_mem_cons]
  exact ⟨.str _, unambiguous_arr_map hscripts, unambiguous_arr_map hstyles,
    unambiguous_arr_map fun found _ => found.unambiguous_toJson,
    unambiguous_arr_map fun found _ => found.unambiguous_toJson,
    unambiguous_arr_map fun found _ => found.unambiguous_toJson,
    unambiguous_arr_map fun found _ => found.unambiguous_toJson,
    unambiguous_arr_map fun found _ => found.unambiguous_toJson,
    unambiguous_arr_map fun found _ => found.unambiguous_toJson,
    unambiguous_arr_map fun found _ => found.unambiguous_toMembers,
    unambiguous_arr_map fun found _ => found.unambiguous_toJson,
    Tally.unambiguous_toJson h.statistics, List.forall_mem_nil _⟩

namespace Attributes

theorem nodup_insert {attributes : Attributes} (h : (attributes.map Prod.fst).Nodup)
    (name value : Text) : ((attributes.insert name value).map Prod.fst).Nodup := by
  unfold insert
  split
  · exact h
  · rename_i hnew
    have hlookup : attributes.lookup name = none := Option.not_isSome_iff_eq_none.mp hnew
    rw [List.map_append]
    refine List.nodup_append.mpr ⟨h, by simp, ?_⟩
    intro taken htaken given hgiven
    obtain ⟨entry, hentry, rfl⟩ := List.mem_map.mp htaken
    rw [List.mem_singleton.mp hgiven]
    have hne := List.lookup_eq_none_iff.mp hlookup entry hentry
    exact fun heq => by simp [heq] at hne

theorem nodup_foldl_insert (found : List (Text × Text)) (start : Attributes)
    (h : (start.map Prod.fst).Nodup) :
    ((found.foldl (fun kept (name, value) => kept.insert name value) start).map Prod.fst).Nodup := by
  induction found generalizing start with
  | nil => exact h
  | cons entry found ih => exact ih _ (nodup_insert h entry.1 entry.2)

theorem nodup_ofTag (tag tagName : Text) : ((ofTag tag tagName).map Prod.fst).Nodup :=
  nodup_foldl_insert _ [] List.nodup_nil

end Attributes

namespace Analysis

theorem namesOnce_declaredIn (source path : Text) (options : Options) :
    (declaredIn source path options).NamesOnce where
  scripts region h := by
    obtain ⟨span, -, rfl⟩ := List.mem_map.mp h
    exact Attributes.nodup_ofTag _ _
  styles region h := by
    obtain ⟨placed, hplaced, rfl⟩ := List.mem_map.mp h
    obtain ⟨⟨span, index⟩, -, rfl⟩ := List.mem_map.mp hplaced
    exact Attributes.nodup_ofTag _ _
  statistics := List.nodup_nil

theorem NamesOnce.run {analysis : Analysis} (h : analysis.NamesOnce) (document : Document)
    (pass : Pass) : (pass.run document analysis).NamesOnce := by
  cases pass with
  | overrides =>
    obtain ⟨overrides, heq⟩ := withOverrides_eq analysis document
    rw [Pass.run, heq]
    exact { h with }
  | usages =>
    rw [Pass.run, withUsages]
    split
    · exact h
    · exact { h with }
  | statistics =>
    refine { h with statistics := ?_ }
    rw [Pass.run, withStatistics, names_countStatistics]
    decide

theorem NamesOnce.foldl_run {analysis : Analysis} (h : analysis.NamesOnce) (document : Document)
    (passes : List Pass) : (passes.foldl (Pass.run document) analysis).NamesOnce := by
  induction passes generalizing analysis with
  | nil => exact h
  | cons pass passes ih => exact ih (h.run document pass)

theorem namesOnce_analyzeWith (passes : List Pass) (source path : Text) (options : Options) :
    (analyzeWith passes source path options).NamesOnce :=
  (namesOnce_declaredIn source path options).foldl_run _ passes

end Analysis

/-! ## Different analyses have different values -/

namespace Json

@[simp] theorem nat_inj {m n : Nat} : nat m = nat n ↔ m = n := by
  rw [nat, nat, Json.int.injEq, Int.ofNat_inj]

@[simp] theorem texts_inj {items others : List Text} :
    texts items = texts others ↔ items = others := by
  simp [texts, List.map_inj_right]

theorem ofOption_inj {α : Type} {encode : α → Json} (hnull : ∀ a, encode a ≠ .null)
    (h : ∀ {a b : α}, encode a = encode b ↔ a = b) {a b : Option α} :
    ofOption encode a = ofOption encode b ↔ a = b := by
  cases a <;> cases b <;> simp [ofOption, h, hnull, (hnull _).symm]

@[simp] theorem ofOption_str_inj {a b : Option Text} :
    ofOption .str a = ofOption .str b ↔ a = b :=
  ofOption_inj (by simp) (by simp)

theorem obj_map_inj {α : Type} {encode : α → Json} (h : ∀ {a b : α}, encode a = encode b ↔ a = b)
    {entries others : List (Text × α)} :
    obj (entries.map fun (name, value) => (name, encode value)) =
      obj (others.map fun (name, value) => (name, encode value)) ↔ entries = others := by
  rw [Json.obj.injEq, List.map_inj_right]
  rintro ⟨name, value⟩ ⟨other, second⟩ heq
  rw [Prod.mk.injEq, h] at heq
  rw [heq.1, heq.2]

end Json

@[simp] theorem VariableKind.label_inj {a b : VariableKind} : a.label = b.label ↔ a = b := by
  cases a <;> cases b <;> decide

@[simp] theorem FunctionKind.label_inj {a b : FunctionKind} : a.label = b.label ↔ a = b := by
  cases a <;> cases b <;> decide

@[simp] theorem ImportKind.label_inj {a b : ImportKind} : a.label = b.label ↔ a = b := by
  cases a <;> cases b <;> decide

@[simp] theorem SelectorKind.label_inj {a b : SelectorKind} : a.label = b.label ↔ a = b := by
  cases a <;> cases b <;> decide

@[simp] theorem Position.toJson_inj {a b : Position} : a.toJson = b.toJson ↔ a = b := by
  cases a; cases b; simp [toJson]

@[simp] theorem Usage.toJson_inj {a b : Usage} : a.toJson = b.toJson ↔ a = b := by
  cases a; cases b; simp [toJson]

@[simp] theorem usagesJson_inj {usages others : List Usage} :
    usagesJson usages = usagesJson others ↔ usages = others := by
  simp [usagesJson, List.map_inj_right]

@[simp] theorem Attributes.toJson_inj {a b : Attributes} :
    Attributes.toJson a = Attributes.toJson b ↔ a = b :=
  obj_map_inj (by simp)

@[simp] theorem Tally.toJson_inj {a b : Tally} : Tally.toJson a = Tally.toJson b ↔ a = b :=
  obj_map_inj (by simp)

theorem ElementSpan.toMembers_inj {a b : ElementSpan} {more others : List (Text × Json)} :
    a.toMembers ++ more = b.toMembers ++ others ↔ a = b ∧ more = others := by
  cases a; cases b; simp [toMembers]; tauto

@[simp] theorem ScriptRegion.toJson_inj {a b : ScriptRegion} : a.toJson = b.toJson ↔ a = b := by
  cases a; cases b; simp [toJson, concat, ElementSpan.toMembers_inj]

@[simp] theorem StyleRegion.toJson_inj {a b : StyleRegion} : a.toJson = b.toJson ↔ a = b := by
  have hposition : ∀ p q : Option Position,
      ofOption Position.toJson p = ofOption Position.toJson q ↔ p = q :=
    fun p q => ofOption_inj (by simp [Position.toJson]) Position.toJson_inj
  cases a; cases b; simp [toJson, concat, ElementSpan.toMembers_inj, hposition]

@[simp] theorem StyleImport.toJson_inj {a b : StyleImport} : a.toJson = b.toJson ↔ a = b := by
  cases a; cases b; simp [toJson]

@[simp] theorem Variable.toJson_inj {a b : Variable} : a.toJson = b.toJson ↔ a = b := by
  cases a; cases b; simp [toJson]

@[simp] theorem Import.toJson_inj {a b : Import} : a.toJson = b.toJson ↔ a = b := by
  cases a; cases b; simp [toJson]

@[simp] theorem Function.toJson_inj {a b : Function} : a.toJson = b.toJson ↔ a = b := by
  cases a; cases b; simp [toJson]

@[simp] theorem StyleSelector.toJson_inj {a b : StyleSelector} : a.toJson = b.toJson ↔ a = b := by
  cases a; cases b; simp [toJson]

@[simp] theorem StyleOverride.toJson_inj {a b : StyleOverride} : a.toJson = b.toJson ↔ a = b := by
  cases a; cases b; simp [toJson]

@[simp] theorem ComponentImport.toMembers_inj {a b : ComponentImport} :
    a.toMembers = b.toMembers ↔ a = b := by
  cases a; cases b; simp [toMembers]

@[simp] theorem ComponentUsage.toJson_inj {a b : ComponentUsage} : a.toJson = b.toJson ↔ a = b := by
  cases a; cases b; simp [toJson]

theorem Analysis.toJson_inj {a b : Analysis} : a.toJson = b.toJson ↔ a = b := by
  cases a; cases b; simp [toJson, List.map_inj_right]

end ComponentAudit
