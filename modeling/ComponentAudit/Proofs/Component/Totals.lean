import ComponentAudit.Component.Analysis
import Mathlib.Algebra.BigOperators.Group.List.Basic
import Mathlib.Algebra.Ring.Int.Defs

/-! # Counters add up

A counter of several files together is the sum of the files' counters, whatever their order, and the
change of a counter is the difference of its values. Counters that a tally lacks are zero. -/

namespace ComponentAudit

namespace Tally

/-! ## Values -/

theorem lookup_cons (entry : Text × Int) (tally : Tally) (name : Text) :
    List.lookup name (entry :: tally) =
      if name = entry.1 then some entry.2 else List.lookup name tally := by
  obtain ⟨first, value⟩ := entry
  rw [List.lookup_cons]
  by_cases h : name = first
  · simp [h]
  · simp [h, beq_eq_false_iff_ne.mpr h]

theorem get_cons (entry : Text × Int) (tally : Tally) (name : Text) :
    get (entry :: tally) name = if name = entry.1 then entry.2 else tally.get name := by
  rw [get, lookup_cons]
  split <;> rfl

theorem get_of_not_mem {tally : Tally} {name : Text} (h : name ∉ tally.map Prod.fst) :
    tally.get name = 0 := by
  induction tally with
  | nil => rfl
  | cons entry tally ih =>
    rw [List.map_cons, List.mem_cons, not_or] at h
    rw [get_cons, if_neg h.1, ih h.2]

theorem has_iff_mem (tally : Tally) (name : Text) :
    tally.has name = true ↔ name ∈ tally.map Prod.fst := by
  rw [has, List.lookup_isSome_iff]
  simp only [beq_iff_eq, List.mem_map, eq_comm (a := name)]

/-- Values that change by a rule for each name. -/
theorem lookup_map (change : Text → Int → Int) (tally : Tally) (name : Text) :
    List.lookup name (tally.map fun (found, value) => (found, change found value)) =
      (tally.lookup name).map (change name) := by
  induction tally with
  | nil => rfl
  | cons entry tally ih =>
    rw [List.map_cons, lookup_cons, lookup_cons, ih]
    by_cases h : name = entry.1
    · rw [if_pos h, if_pos h, h]
      rfl
    · rw [if_neg h, if_neg h]

/-- Adding to a counter changes that one only. -/
theorem get_add (tally : Tally) (entry : Text × Int) (name : Text) :
    (tally.add entry).get name = tally.get name + if name = entry.1 then entry.2 else 0 := by
  unfold add
  split
  · rename_i hhas
    rw [get, get, lookup_map fun found value => if found == entry.1 then value + entry.2 else value]
    by_cases hname : name = entry.1
    · obtain ⟨value, hvalue⟩ := Option.isSome_iff_exists.mp hhas
      simp [hname, hvalue]
    · simp [hname]
  · rename_i hmissing
    rw [get, get, List.lookup_append, lookup_cons]
    by_cases hname : name = entry.1
    · have hnone : tally.lookup entry.1 = none := Option.not_isSome_iff_eq_none.mp hmissing
      simp [hname, hnone]
    · simp [hname]

theorem get_addAll {tally other : Tally} (h : (other.map Prod.fst).Nodup) (name : Text) :
    (tally.addAll other).get name = tally.get name + other.get name := by
  induction other generalizing tally with
  | nil => exact (add_zero _).symm
  | cons entry other ih =>
    rw [List.map_cons, List.nodup_cons] at h
    have hstep : addAll tally (entry :: other) = (tally.add entry).addAll other := rfl
    rw [hstep, ih h.2, get_add, get_cons]
    split
    · rename_i hname
      rw [hname, get_of_not_mem h.1, add_zero]
    · rw [add_zero]

/-- The change of a counter, also of one that a side lacks. -/
theorem get_difference (before after : Tally) (name : Text) :
    (before.difference after).get name = after.get name - before.get name := by
  have hlookup : ∀ names : List Text,
      get (names.map fun name => (name, after.get name - before.get name)) name =
        if name ∈ names then after.get name - before.get name else 0 := by
    intro names
    induction names with
    | nil => rfl
    | cons first names ih =>
      rw [List.map_cons, get_cons, ih]
      by_cases hfirst : name = first
      · simp [hfirst]
      · simp [hfirst]
  rw [difference, hlookup]
  split
  · rfl
  · rename_i hnone
    simp only [List.mem_append, List.mem_filter, not_or, not_and, Bool.not_eq_true',
      Bool.not_eq_false, has_iff_mem] at hnone
    have hbefore : before.get name = 0 := get_of_not_mem hnone.1
    have hafter : after.get name = 0 := get_of_not_mem fun hmem => hnone.1 (hnone.2 hmem)
    rw [hbefore, hafter, sub_zero]

/-! ## Names -/

theorem names_add {tally : Tally} {entry : Text × Int} (h : entry.1 ∈ tally.map Prod.fst) :
    (tally.add entry).map Prod.fst = tally.map Prod.fst := by
  rw [add, if_pos ((has_iff_mem tally entry.1).mpr h), List.map_map]
  rfl

theorem names_addAll {tally other : Tally}
    (h : ∀ name ∈ other.map Prod.fst, name ∈ tally.map Prod.fst) :
    (tally.addAll other).map Prod.fst = tally.map Prod.fst := by
  induction other generalizing tally with
  | nil => rfl
  | cons entry other ih =>
    obtain ⟨hentry, hother⟩ := List.forall_mem_cons.mp h
    have hnames := names_add hentry
    have hknown : ∀ name ∈ other.map Prod.fst, name ∈ (tally.add entry).map Prod.fst :=
      fun name hname => hnames ▸ hother name hname
    exact (ih hknown).trans hnames

theorem names_difference {before after : Tally} (h : after.map Prod.fst = before.map Prod.fst) :
    (before.difference after).map Prod.fst = before.map Prod.fst := by
  have hnone : (after.map Prod.fst).filter (!before.has ·) = [] := by
    refine List.filter_eq_nil_iff.mpr fun name hname => ?_
    rw [(has_iff_mem before name).mpr (h ▸ hname)]
    decide
  rw [difference, List.map_map, hnone, List.append_nil]
  exact List.map_id _

/-- Tallies with the same names are equal if their counters are. -/
theorem eq_of_get {s t : Tally} (hnames : s.map Prod.fst = t.map Prod.fst)
    (honce : (s.map Prod.fst).Nodup) (hget : ∀ name, s.get name = t.get name) : s = t := by
  induction s generalizing t with
  | nil => exact (List.map_eq_nil_iff.mp hnames.symm).symm
  | cons entry s ih =>
    obtain _ | ⟨other, t⟩ := t
    · cases hnames
    · rw [List.map_cons, List.map_cons, List.cons.injEq] at hnames
      rw [List.map_cons, List.nodup_cons] at honce
      have hvalue : entry.2 = other.2 := by
        have hhead := hget entry.1
        rwa [get_cons, get_cons, if_pos rfl, if_pos hnames.1] at hhead
      have hrest : s = t := by
        refine ih hnames.2 honce.2 fun name => ?_
        by_cases hname : name = entry.1
        · have hother : entry.1 ∉ t.map Prod.fst := hnames.2 ▸ honce.1
          rw [hname, get_of_not_mem honce.1, get_of_not_mem hother]
        · have htail := hget name
          rwa [get_cons, get_cons, if_neg hname, if_neg (hnames.1 ▸ hname)] at htail
      rw [hrest, Prod.ext hnames.1 hvalue]

end Tally

namespace Analysis

/-! ## Several files -/

theorem names_countStatistics (t : Text) (analysis : Analysis) :
    (countStatistics t analysis).map Prod.fst = statisticNames := rfl

theorem names_analyze (source path : Text) (options : Options) :
    (analyze source path options).statistics.map Prod.fst = statisticNames :=
  names_countStatistics _ _

theorem nodup_statisticNames : statisticNames.Nodup := by decide

/-- The name of the counter of files. -/
def fileCountName : Text := "total_files"

/-- The names of the counters of several files. -/
def totalNames : List Text := fileCountName :: statisticNames

theorem nodup_totalNames : totalNames.Nodup := by decide

/-- Counts one more file. -/
def countFile (tally : Tally) (analysis : Analysis) : Tally :=
  (tally.add (fileCountName, 1)).addAll analysis.statistics

/-- The counters of no files. -/
def noFiles : Tally := totalNames.map fun name => (name, 0)

theorem totals_eq_foldl (analyses : List Analysis) :
    totals analyses = analyses.foldl countFile noFiles := rfl

/-- Files that have been counted: each has the counters of one file and no others. -/
def Counted (analyses : List Analysis) : Prop :=
  ∀ analysis ∈ analyses, analysis.statistics.map Prod.fst = statisticNames

section CountFile

variable {analysis : Analysis} (h : analysis.statistics.map Prod.fst = statisticNames)

include h

theorem names_countFile {tally : Tally} (htally : tally.map Prod.fst = totalNames) :
    (countFile tally analysis).map Prod.fst = totalNames := by
  have hcount : (tally.add (fileCountName, 1)).map Prod.fst = totalNames := by
    rw [Tally.names_add (by rw [htally]; exact List.mem_cons_self), htally]
  rw [countFile, Tally.names_addAll, hcount]
  rw [hcount, h]
  exact fun name hname => List.mem_cons_of_mem _ hname

theorem get_countFile (tally : Tally) (name : Text) :
    (countFile tally analysis).get name =
      tally.get name + ((if name = fileCountName then 1 else 0) + analysis.statistics.get name) := by
  have honce : (analysis.statistics.map Prod.fst).Nodup := h ▸ nodup_statisticNames
  rw [countFile, Tally.get_addAll honce, Tally.get_add, add_assoc]

end CountFile

variable {analyses : List Analysis}

theorem names_foldl_countFile (h : Counted analyses) {tally : Tally}
    (htally : tally.map Prod.fst = totalNames) :
    (analyses.foldl countFile tally).map Prod.fst = totalNames := by
  induction analyses generalizing tally with
  | nil => exact htally
  | cons analysis analyses ih =>
    obtain ⟨hfirst, hrest⟩ := List.forall_mem_cons.mp h
    exact ih hrest (names_countFile hfirst htally)

theorem get_foldl_countFile (h : Counted analyses) (tally : Tally) (name : Text) :
    (analyses.foldl countFile tally).get name =
      tally.get name + ((if name = fileCountName then (analyses.length : Int) else 0) +
        (analyses.map (·.statistics.get name)).sum) := by
  induction analyses generalizing tally with
  | nil => simp
  | cons analysis analyses ih =>
    obtain ⟨hfirst, hrest⟩ := List.forall_mem_cons.mp h
    rw [List.foldl_cons, ih hrest, get_countFile hfirst, List.map_cons, List.sum_cons,
      List.length_cons]
    split <;> omega

theorem get_noFiles (name : Text) : noFiles.get name = 0 := by
  have hzero : ∀ names : List Text, Tally.get (names.map fun name => (name, 0)) name = 0 := by
    intro names
    induction names with
    | nil => rfl
    | cons first names ih =>
      rw [List.map_cons, Tally.get_cons, ih, ite_self]
  exact hzero totalNames

variable (h : Counted analyses)

include h

theorem names_totals : (totals analyses).map Prod.fst = totalNames := by
  rw [totals_eq_foldl]
  exact names_foldl_countFile h rfl

theorem get_totals (name : Text) :
    (totals analyses).get name =
      (if name = fileCountName then (analyses.length : Int) else 0) +
        (analyses.map (·.statistics.get name)).sum := by
  rw [totals_eq_foldl, get_foldl_countFile h, get_noFiles, zero_add]

/-- Every counter but that of the files themselves is the sum of the files' counters. -/
theorem get_totals_of_ne {name : Text} (hname : name ≠ fileCountName) :
    (totals analyses).get name = (analyses.map (·.statistics.get name)).sum := by
  rw [get_totals h, if_neg hname, zero_add]

theorem get_totals_fileCount : (totals analyses).get fileCountName = analyses.length := by
  have hzero : analyses.map (·.statistics.get fileCountName) = analyses.map fun _ => 0 := by
    refine List.map_congr_left fun analysis hmem => Tally.get_of_not_mem ?_
    rw [h analysis hmem]
    decide
  rw [get_totals h, if_pos rfl, hzero]
  simp

/-- The order of files does not matter, not even to the order of the counters. -/
theorem totals_perm {others : List Analysis} (hperm : others.Perm analyses) :
    totals others = totals analyses := by
  have hothers : Counted others := fun analysis hmem => h analysis (hperm.subset hmem)
  refine Tally.eq_of_get ?_ ?_ fun name => ?_
  · rw [names_totals hothers, names_totals h]
  · rw [names_totals hothers]
    exact nodup_totalNames
  · rw [get_totals hothers, get_totals h, hperm.length_eq,
      (hperm.map (·.statistics.get name)).sum_eq]

end Analysis

end ComponentAudit
