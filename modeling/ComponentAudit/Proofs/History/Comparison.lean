import ComponentAudit.Proofs.Component.Totals
import ComponentAudit.Proofs.Finding.Evidence
import ComponentAudit.Proofs.History.Snapshot
import ComponentAudit.Proofs.Usage.Order
import Mathlib.Algebra.BigOperators.Group.Finset.Piecewise

/-! # What changed between two revisions

Each side of a comparison adds up the counters of its files, each file by itself, so the change of a
counter is what the added files bring, less what the removed ones take away, plus what the changed ones
differ by. Changes from revision to revision add up. -/

namespace ComponentAudit

theorem Analysis.filePath_analyze (source path : Text) (options : Options) :
    (analyze source path options).filePath = path := by
  obtain ⟨overrides, statistics, heq⟩ := analyze_eq source path options
  rw [heq, withUsages]
  split <;> rfl

/-! ## Sums over two sets of paths -/

/-- Two sums differ by what is in one set alone and by what differs in both. -/
theorem sum_sub_sum_eq {A B : Finset Text} {f g : Text → Int} {changed : Text → Prop}
    [DecidablePred changed] (h : ∀ path, ¬ changed path → f path = g path) :
    ∑ path ∈ A, f path - ∑ path ∈ B, g path =
      ∑ path ∈ A \ B, f path - ∑ path ∈ B \ A, g path +
        ∑ path ∈ A ∩ B with changed path, (f path - g path) := by
  have hchanged : ∑ path ∈ A ∩ B with changed path, (f path - g path) =
      ∑ path ∈ A ∩ B, (f path - g path) := by
    refine Finset.sum_filter_of_ne fun path _ hne => ?_
    by_contra hsame
    exact hne (sub_eq_zero.mpr (h path hsame))
  have hA := Finset.sum_inter_add_sum_sdiff A B f
  have hB := Finset.sum_inter_add_sum_sdiff B A g
  rw [Finset.inter_comm] at hB
  rw [hchanged, Finset.sum_sub_distrib]
  omega

namespace CommitComparison

/-! ## Files of one side only -/

theorem mem_missingFrom {paths others : List Text} {path : Text} :
    path ∈ missingFrom paths others ↔ path ∈ paths ∧ path ∉ others := by
  simp [missingFrom, Text.sort]

theorem length_missingFrom (paths others : List Text) :
    (missingFrom paths others).length = (paths.toFinset \ others.toFinset).card := by
  have honce : (missingFrom paths others).Nodup :=
    (List.mergeSort_perm _ _).nodup_iff.mpr (nodup_eraseDups _)
  have hset : (missingFrom paths others).toFinset = paths.toFinset \ others.toFinset := by
    ext path
    simp [mem_missingFrom]
  rw [← hset, List.toFinset_card_of_nodup honce]

end CommitComparison

namespace Snapshot

/-! ## One side -/

/-- A counter of a file as it is at a revision. -/
def View.counterAt (view : View) (revision name path : Text) : Int :=
  (view.analysisAt revision path).statistics.get name

namespace IsAt

variable {side : CommitAnalysis} {view : View} {revision : Text} (h : IsAt side view revision)

include h

theorem paths_eq : side.paths = view.pathsAt revision := by
  rw [CommitAnalysis.paths, h.analyses, List.map_map]
  exact (List.map_congr_left fun path _ => Analysis.filePath_analyze _ path _).trans (List.map_id _)

theorem counted : Analysis.Counted side.analyses := by
  intro analysis hmem
  rw [h.analyses] at hmem
  obtain ⟨path, -, rfl⟩ := List.mem_map.mp hmem
  exact Analysis.names_analyze _ path _

theorem nodup_paths (hlisted : (view.git.listed revision).Nodup) : side.paths.Nodup :=
  h.paths_eq ▸ View.nodup_pathsAt hlisted

/-- No file counts twice if none is listed twice. -/
theorem get_statistics (honce : side.paths.Nodup) {name : Text}
    (hname : name ≠ Analysis.fileCountName) :
    side.statistics.get name = ∑ path ∈ side.paths.toFinset, view.counterAt revision name path := by
  rw [CommitAnalysis.statistics, Analysis.get_totals_of_ne h.counted hname,
    List.sum_toFinset _ honce, h.paths_eq, h.analyses, List.map_map]
  rfl

theorem get_statistics_fileCount (honce : side.paths.Nodup) :
    side.statistics.get Analysis.fileCountName = side.paths.toFinset.card := by
  rw [CommitAnalysis.statistics, Analysis.get_totals_fileCount h.counted,
    List.toFinset_card_of_nodup honce, CommitAnalysis.paths, List.length_map]

end IsAt

/-! ## Both sides -/

/-- The change between two revisions in a view, as a comparison has to show it. -/
structure IsExact (comparison : CommitComparison) (view : View) (before after : Text) : Prop where
  earlier : IsAt comparison.before view before
  later : IsAt comparison.after view after
  names : comparison.differences.map Prod.fst = Analysis.totalNames
  /-- What the added files bring, less what the removed ones took along, plus what those files differ
  by whose content differs. -/
  counters : ∀ name, name ≠ Analysis.fileCountName →
    comparison.differences.get name =
      ∑ path ∈ comparison.after.paths.toFinset \ comparison.before.paths.toFinset,
          view.counterAt after name path -
        ∑ path ∈ comparison.before.paths.toFinset \ comparison.after.paths.toFinset,
          view.counterAt before name path +
        ∑ path ∈ comparison.after.paths.toFinset ∩ comparison.before.paths.toFinset
          with view.sourceAt before path ≠ view.sourceAt after path,
          (view.counterAt after name path - view.counterAt before name path)
  fileCount : comparison.differences.get Analysis.fileCountName =
    comparison.addedFiles.length - comparison.removedFiles.length
  orderBefore : ∀ analyses, analyses.Perm comparison.before.analyses →
    Analysis.totals analyses = comparison.before.statistics
  orderAfter : ∀ analyses, analyses.Perm comparison.after.analyses →
    Analysis.totals analyses = comparison.after.statistics

theorem isExact {comparison : CommitComparison} {view : View} {before after : Text}
    (hbefore : IsAt comparison.before view before) (hafter : IsAt comparison.after view after)
    (hlistedBefore : (view.git.listed before).Nodup) (hlistedAfter : (view.git.listed after).Nodup) :
    IsExact comparison view before after where
  earlier := hbefore
  later := hafter
  names := by
    have htotals : comparison.before.statistics.map Prod.fst = Analysis.totalNames :=
      Analysis.names_totals hbefore.counted
    have htotals' : comparison.after.statistics.map Prod.fst = Analysis.totalNames :=
      Analysis.names_totals hafter.counted
    rw [CommitComparison.differences, Tally.names_difference (htotals'.trans htotals.symm), htotals]
  counters := by
    intro name hname
    rw [CommitComparison.differences, Tally.get_difference,
      hbefore.get_statistics (hbefore.nodup_paths hlistedBefore) hname,
      hafter.get_statistics (hafter.nodup_paths hlistedAfter) hname]
    refine sum_sub_sum_eq fun path hsame => ?_
    rw [View.counterAt, View.counterAt, View.analysisAt, View.analysisAt, not_not.mp hsame]
  fileCount := by
    have hcardBefore := Finset.card_sdiff_add_card_inter comparison.before.paths.toFinset
      comparison.after.paths.toFinset
    have hcardAfter := Finset.card_sdiff_add_card_inter comparison.after.paths.toFinset
      comparison.before.paths.toFinset
    rw [Finset.inter_comm] at hcardAfter
    rw [CommitComparison.differences, Tally.get_difference,
      hbefore.get_statistics_fileCount (hbefore.nodup_paths hlistedBefore),
      hafter.get_statistics_fileCount (hafter.nodup_paths hlistedAfter), CommitComparison.addedFiles,
      CommitComparison.removedFiles, CommitComparison.length_missingFrom,
      CommitComparison.length_missingFrom]
    omega
  orderBefore := fun analyses hperm => Analysis.totals_perm hbefore.counted hperm
  orderAfter := fun analyses hperm => Analysis.totals_perm hafter.counted hperm

theorem IsAt.statistics_eq {side other : CommitAnalysis} {view : View} {revision : Text}
    (h : IsAt side view revision) (h' : IsAt other view revision) :
    side.statistics = other.statistics := by
  rw [CommitAnalysis.statistics, CommitAnalysis.statistics, h.analyses, h'.analyses]

variable (host : Host) (files : Files) (git : Git) (given : Option Settings) (path : Text)

/-- Two revisions about which every question is answered can be compared; the change between them is
exact if neither lists a file twice; and the changes over two steps add up to the change over both. -/
theorem compare_exact :
    (∀ view before after, (Snapshot.view host files git given path).result.1 = .ok view →
      view.Answers before none → view.Answers after (some before) →
      ∃ comparison, (compare host files git given path before after).result.1 = .ok comparison) ∧
    (∀ before after comparison,
      (compare host files git given path before after).result.1 = .ok comparison →
      (git.listed before).Nodup → (git.listed after).Nodup →
      ∃ view, (Snapshot.view host files git given path).result.1 = .ok view ∧
        IsExact comparison view before after) ∧
    (∀ a b c ab bc ac,
      (compare host files git given path a b).result.1 = .ok ab →
      (compare host files git given path b c).result.1 = .ok bc →
      (compare host files git given path a c).result.1 = .ok ac →
      ∀ name, ac.differences.get name = ab.differences.get name + bc.differences.get name) := by
  refine ⟨?_, ?_, ?_⟩
  · intro view before after hview hbefore hafter
    obtain ⟨t, hview⟩ := Run.result_eq_ok.mp hview
    obtain ⟨comparison, hcompare⟩ := compare_succeeds hview hbefore hafter
    exact ⟨comparison, Run.result_eq_ok.mpr hcompare⟩
  · intro before after comparison hcompare hlistedBefore hlistedAfter
    obtain ⟨t, hreturns⟩ := Run.result_eq_ok.mp hcompare
    obtain ⟨view, u, hview, hbefore, hafter⟩ := compare_returns hreturns
    have hgit := view_returns hview
    exact ⟨view, Run.result_eq_ok.mpr ⟨u, hview⟩,
      isExact hbefore hafter (hgit ▸ hlistedBefore) (hgit ▸ hlistedAfter)⟩
  · intro a b c ab bc ac hab hbc hac name
    obtain ⟨_, hab⟩ := Run.result_eq_ok.mp hab
    obtain ⟨_, hbc⟩ := Run.result_eq_ok.mp hbc
    obtain ⟨_, hac⟩ := Run.result_eq_ok.mp hac
    obtain ⟨view, _, hview, habBefore, habAfter⟩ := compare_returns hab
    obtain ⟨view', _, hview', hbcBefore, hbcAfter⟩ := compare_returns hbc
    obtain ⟨view'', _, hview'', hacBefore, hacAfter⟩ := compare_returns hac
    -- the three comparisons find the same view, since each of them starts with looking for it
    obtain rfl := (hview'.unique hview).1
    obtain rfl := (hview''.unique hview').1
    have hfirst : ab.before.statistics = ac.before.statistics := habBefore.statistics_eq hacBefore
    have hmiddle : ab.after.statistics = bc.before.statistics := habAfter.statistics_eq hbcBefore
    have hlast : bc.after.statistics = ac.after.statistics := hbcAfter.statistics_eq hacAfter
    simp only [CommitComparison.differences, Tally.get_difference, hfirst, hmiddle, hlast]
    omega

/-- Three revisions: a file changes and another joins it, then one goes. -/
def sampleContents (revision : Text) : List (Text × Text) :=
  if revision == "first" then
    [("App.svelte", "<style>p\x7b\x7d</style>"), ("Old.svelte", "<p>old</p>")]
  else if revision == "second" then
    [("App.svelte", "<style>p\x7b\x7d q\x7b\x7d</style>"), ("New.svelte", "<script>let a\n</script>"),
      ("Old.svelte", "<p>old</p>")]
  else if revision == "third" then
    [("App.svelte", "<style>p\x7b\x7d q\x7b\x7d</style>"), ("New.svelte", "<script>let a\n</script>")]
  else []

/-- A repository with these revisions. -/
def sampleGit : Git where
  answer
    | .topLevel => .ok "/repo\n"
    | .commit revision => .ok (revision ++ "\n")
    | .files revision => .ok ((sampleContents revision).flatMap fun (path, _) => path ++ "\n")
    | .content revision path =>
      match (sampleContents revision).lookup path with
      | some content => .ok content
      | none => .error (.exited 128 "fatal: no such file\n")
    | .changes _ => .ok []
    | .changesBetween _ _ => .ok []

/-- Surroundings that know no home directory and have no reader of documents. -/
def sampleHost : Host := ⟨fun _ => .error .broken, fun _ => none⟩

/-- The directory of the repository, which is also the working directory. -/
def sampleFiles : Files := ⟨.directory [("repo", .directory [])], ⟨["repo"]⟩⟩

/-- The whole repository, with the default settings. -/
def sampleView : View where
  git := sampleGit
  repository := "/repo"
  scope := []
  selection := Selection.of [] []
  options := {}

/-- The revisions of the repository. -/
def sampleRevisions : List Text := ["first", "second", "third"]

theorem sampleView_answers {revision : Text} (h : revision ∈ sampleRevisions) (base : Option Text) :
    sampleView.Answers revision base where
  commit := by
    have hhash : ∀ revision ∈ sampleRevisions,
        (Commit.ofAnswer? (revision ++ "\n")).isSome = true := by decide +kernel
    exact ⟨revision ++ "\n", rfl, hhash revision h⟩
  files := ⟨_, rfl⟩
  ignoreFile := by
    intro hignore
    have hnone : ∀ revision ∈ sampleRevisions,
        (sampleGit.listed revision).contains Discovery.ignoreFileName = false := by decide +kernel
    cases (hnone revision h).symm.trans hignore
  contents := by
    intro path hpath
    have hknown : ∀ revision ∈ sampleRevisions, ∀ path ∈ sampleGit.listed revision,
        ((sampleContents revision).lookup path).isSome = true := by decide +kernel
    obtain ⟨content, hcontent⟩ := Option.isSome_iff_exists.mp
      (hknown revision h path (View.mem_listed_of_mem_pathsAt hpath))
    exact ⟨content, by simp only [sampleView, sampleGit, hcontent]⟩
  changes := by
    cases base with
    | none => exact ⟨[], rfl⟩
    | some base => exact ⟨[], rfl⟩

theorem compare_exact_sampleGit :
    let compared := compare sampleHost sampleFiles sampleGit (some { root := ⟨["repo"]⟩ }) "."
    ∃ ab bc ac, (compared "first" "second").result.1 = .ok ab ∧
      (compared "second" "third").result.1 = .ok bc ∧ (compared "first" "third").result.1 = .ok ac ∧
      (sampleGit.listed "first").Nodup ∧ (sampleGit.listed "second").Nodup ∧
      (∃ view, IsExact ab view "first" "second") ∧
      ∀ name, ac.differences.get name = ab.differences.get name + bc.differences.get name := by
  intro compared
  have hview : (Snapshot.view sampleHost sampleFiles sampleGit (some { root := ⟨["repo"]⟩ })
      ".").result.1 = .ok sampleView := rfl
  obtain ⟨hcompared, hexact, hsteps⟩ :=
    compare_exact sampleHost sampleFiles sampleGit (some { root := ⟨["repo"]⟩ }) "."
  have hfirst : ("first" : Text) ∈ sampleRevisions := by decide
  have hsecond : ("second" : Text) ∈ sampleRevisions := by decide
  have hthird : ("third" : Text) ∈ sampleRevisions := by decide
  obtain ⟨ab, hab⟩ := hcompared sampleView "first" "second" hview (sampleView_answers hfirst none)
    (sampleView_answers hsecond _)
  obtain ⟨bc, hbc⟩ := hcompared sampleView "second" "third" hview (sampleView_answers hsecond none)
    (sampleView_answers hthird _)
  obtain ⟨ac, hac⟩ := hcompared sampleView "first" "third" hview (sampleView_answers hfirst none)
    (sampleView_answers hthird _)
  have honce : ∀ revision ∈ sampleRevisions, (sampleGit.listed revision).Nodup := by decide +kernel
  obtain ⟨view, -, hchange⟩ := hexact "first" "second" ab hab (honce _ hfirst) (honce _ hsecond)
  exact ⟨ab, bc, ac, hab, hbc, hac, honce _ hfirst, honce _ hsecond, ⟨view, hchange⟩,
    hsteps _ _ _ ab bc ac hab hbc hac⟩

end Snapshot

end ComponentAudit
