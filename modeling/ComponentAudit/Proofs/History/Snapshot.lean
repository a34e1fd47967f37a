import ComponentAudit.History.Snapshot
import ComponentAudit.Proofs.Project.Run

/-! # What a revision holds

The analyses of a revision depend on the answers about that revision alone: on the files it lists, its
ignore file and the content of the selected files. A run that returns has asked for each of these and
got an answer, whatever it logged before and whatever base it was given. -/

namespace ComponentAudit

open Run (Returns)

variable {s t : List LogEntry}

namespace Git

/-- The answer to a question; empty if there is none. -/
def said (git : Git) (query : GitQuery) : Text :=
  match git.answer query with
  | .ok answer => answer
  | .error _ => []

/-- The files that a revision lists. -/
def listed (git : Git) (revision : Text) : List Text := pathsOfAnswer (git.said (.files revision))

variable {git : Git} {directory : Text}

theorem ask_returns {query : GitQuery} {answer : Text}
    (h : (git.ask directory query).Returns s answer t) :
    answer = git.said query ∧ git.answer query = .ok (git.said query) := by
  obtain ⟨_, _, -, h⟩ := h.bind
  unfold said
  cases hanswer : git.answer query with
  | ok found =>
    rw [hanswer] at h
    exact ⟨h.pure.1, rfl⟩
  | error failure =>
    rw [hanswer] at h
    exact h.not_throw.elim

theorem ask_succeeds {query : GitQuery} {answer : Text} (h : git.answer query = .ok answer) :
    (git.ask directory query).Succeeds (· = answer) := by
  refine (Run.Succeeds.logAll _).step ?_
  rw [h]
  exact .pure rfl

theorem files_returns {revision : Text} {paths : List Text}
    (h : (git.files directory revision).Returns s paths t) : paths = git.listed revision := by
  obtain ⟨_, _, hanswer, h⟩ := h.bind
  rw [h.pure.1, (ask_returns hanswer).1, listed]

end Git

namespace Snapshot

namespace View

variable (view : View) (revision : Text)

/-- The ignore rules at a revision. -/
def rulesAt : List IgnoreRule :=
  if (view.git.listed revision).contains Discovery.ignoreFileName then
    IgnoreRule.ofLines (Text.lines (view.git.said (.content revision Discovery.ignoreFileName)))
  else []

/-- The files to analyse at a revision. -/
def pathsAt : List Text :=
  view.selection.filterPaths (view.rulesAt revision) (within view.scope (view.git.listed revision))

/-- The content of a file at a revision. -/
def sourceAt (path : Text) : Text := view.git.said (.content revision path)

/-- The analysis of a file as it is at a revision. -/
def analysisAt (path : Text) : Analysis :=
  ComponentAudit.analyze (view.sourceAt revision path) path view.options

end View

theorem within_sublist (scope : Text) (paths : List Text) : (within scope paths).Sublist paths := by
  unfold within
  split
  · exact List.Sublist.refl paths
  · exact List.filter_sublist

theorem View.mem_listed_of_mem_pathsAt {view : View} {revision path : Text}
    (h : path ∈ view.pathsAt revision) : path ∈ view.git.listed revision :=
  (within_sublist _ _).subset (List.mem_filter.mp (List.mem_mergeSort.mp h)).1

theorem View.nodup_pathsAt {view : View} {revision : Text}
    (h : (view.git.listed revision).Nodup) : (view.pathsAt revision).Nodup :=
  (List.mergeSort_perm _ _).nodup_iff.mpr ((h.sublist (within_sublist _ _)).filter _)

/-- The analyses of a revision are those of the selected files, each as it is there. The content of
every one of them was answered, so that no text stands in for it. -/
structure IsAt (analysis : CommitAnalysis) (view : View) (revision : Text) : Prop where
  analyses : analysis.analyses = (view.pathsAt revision).map (view.analysisAt revision)
  answered : ∀ path ∈ view.pathsAt revision,
    view.git.answer (.content revision path) = .ok (view.sourceAt revision path)

variable {view : View} {revision : Text}

theorem rules_returns {found : List IgnoreRule}
    (h : (rules view revision (view.git.listed revision)).Returns s found t) :
    found = view.rulesAt revision := by
  unfold rules at h
  unfold View.rulesAt
  split at h
  · rename_i hlisted
    obtain ⟨_, _, hcontent, h⟩ := h.bind
    rw [if_pos hlisted, h.pure.1, (Git.ask_returns hcontent).1]
  · rename_i hlisted
    rw [if_neg hlisted, h.pure.1]

/-- What a run makes of one file. -/
theorem analyzeFile_returns {path : Text} {analysis : Analysis}
    (h : Returns (do
      let source ← view.git.content view.repository revision path
      Run.analyzeFile source path view.options) s analysis t) :
    analysis = view.analysisAt revision path ∧
      view.git.answer (.content revision path) = .ok (view.sourceAt revision path) := by
  obtain ⟨_, _, hcontent, h⟩ := h.bind
  obtain ⟨hsource, hanswer⟩ := Git.ask_returns hcontent
  obtain ⟨_, _, -, h⟩ := h.bind
  exact ⟨by rw [h.pure.1, hsource]; rfl, hanswer⟩

theorem analyzeRevision_returns {base : Option Text} {analysis : CommitAnalysis}
    (h : (analyzeRevision view revision base).Returns s analysis t) : IsAt analysis view revision := by
  obtain ⟨_, _, -, h⟩ := h.bind
  obtain ⟨_, _, -, h⟩ := h.bind
  obtain ⟨_, _, hlisted, h⟩ := h.bind
  rw [Git.files_returns hlisted] at h
  obtain ⟨_, _, hrules, h⟩ := h.bind
  rw [rules_returns hrules] at h
  obtain ⟨_, _, hanalyses, h⟩ := h.bind
  obtain ⟨hvalue, hanswered⟩ := hanalyses.mapM analyzeFile_returns
  obtain ⟨_, _, -, h⟩ := h.bind
  obtain ⟨_, _, -, h⟩ := h.bind
  rw [h.pure.1]
  exact ⟨hvalue, hanswered⟩

/-- A comparison analyses two revisions in one view. -/
theorem compare_returns {host : Host} {files : Files} {git : Git} {given : Option Settings}
    {path before after : Text} {comparison : CommitComparison}
    (h : (compare host files git given path before after).Returns [] comparison t) :
    ∃ view u, (Snapshot.view host files git given path).Returns [] view u ∧
      IsAt comparison.before view before ∧ IsAt comparison.after view after := by
  obtain ⟨view, u, hview, h⟩ := h.bind
  obtain ⟨_, _, -, h⟩ := h.bind
  obtain ⟨first, _, hfirst, h⟩ := h.bind
  obtain ⟨second, _, hsecond, h⟩ := h.bind
  rw [h.pure.1]
  exact ⟨view, u, hview, analyzeRevision_returns hfirst, analyzeRevision_returns hsecond⟩

theorem view_returns {host : Host} {files : Files} {git : Git} {given : Option Settings} {path : Text}
    (h : (Snapshot.view host files git given path).Returns s view t) : view.git = git := by
  obtain ⟨_, _, -, h⟩ := h.bind
  obtain ⟨_, _, -, h⟩ := h.bind
  obtain ⟨_, _, -, h⟩ := h.bind
  cases given with
  | some settings => rw [h.pure.1]
  | none =>
    obtain ⟨_, _, -, h⟩ := h.bind
    rw [h.pure.1]

/-! ## Revisions that can be analysed -/

/-- Every question about a revision has an answer, and the revision has a hash. -/
structure View.Answers (view : View) (revision : Text) (base : Option Text) : Prop where
  commit : ∃ answer, view.git.answer (.commit revision) = .ok answer ∧
    (Commit.ofAnswer? answer).isSome = true
  files : ∃ answer, view.git.answer (.files revision) = .ok answer
  ignoreFile : (view.git.listed revision).contains Discovery.ignoreFileName = true →
    ∃ answer, view.git.answer (.content revision Discovery.ignoreFileName) = .ok answer
  contents : ∀ path ∈ view.pathsAt revision,
    ∃ answer, view.git.answer (.content revision path) = .ok answer
  changes : ∃ answer, view.git.answer (match base with
    | none => .changes revision
    | some base => .changesBetween base revision) = .ok answer

variable {base : Option Text}

variable (h : view.Answers revision base)

include h

theorem commit_succeeds :
    (view.git.commit view.repository revision).Succeeds fun _ => True := by
  obtain ⟨shown, hshown, hcommit⟩ := h.commit
  obtain ⟨commit, hsome⟩ := Option.isSome_iff_exists.mp hcommit
  refine (Git.ask_succeeds hshown).step ?_
  rw [hsome]
  exact .pure trivial

theorem files_succeeds :
    (view.git.files view.repository revision).Succeeds (· = view.git.listed revision) := by
  obtain ⟨listed, hlisted⟩ := h.files
  refine (Git.ask_succeeds hlisted).step (.pure ?_)
  rw [Git.listed, Git.said, hlisted]

theorem rules_succeeds :
    (rules view revision (view.git.listed revision)).Succeeds (· = view.rulesAt revision) := by
  unfold rules View.rulesAt
  split
  · rename_i hlisted
    obtain ⟨answer, hanswer⟩ := h.ignoreFile hlisted
    refine (Git.ask_succeeds hanswer).step (.pure ?_)
    rw [Git.said, hanswer]
  · exact .pure rfl

theorem changes_succeeds :
    (view.git.changes view.repository revision base).Succeeds fun _ => True := by
  obtain ⟨changed, hchanged⟩ := h.changes
  exact (Git.ask_succeeds hchanged).step (.pure trivial)

theorem analyzeFile_succeeds {path : Text} (hpath : path ∈ view.pathsAt revision) :
    Run.Succeeds (do
      let source ← view.git.content view.repository revision path
      Run.analyzeFile source path view.options) fun _ => True := by
  obtain ⟨content, hcontent⟩ := h.contents path hpath
  exact (Git.ask_succeeds hcontent).step ((Run.Succeeds.analyzeFile _ _ _).imp fun _ _ => trivial)

theorem analyzeRevision_succeeds : (analyzeRevision view revision base).Succeeds fun _ => True := by
  refine (commit_succeeds h).bind fun commit _ => ?_
  refine (Run.Succeeds.logAll _).step ?_
  refine (files_succeeds h).step ?_
  refine (rules_succeeds h).step ?_
  refine (Run.Succeeds.mapM fun path hpath => analyzeFile_succeeds h hpath).bind fun analyses _ => ?_
  refine (changes_succeeds h).bind fun changed _ => ?_
  exact (Run.Succeeds.logAll _).step (.pure trivial)

omit h

theorem compare_succeeds {host : Host} {files : Files} {git : Git} {given : Option Settings}
    {path before after : Text} {t : List LogEntry}
    (hview : (Snapshot.view host files git given path).Returns [] view t)
    (hbefore : view.Answers before none) (hafter : view.Answers after (some before)) :
    ∃ comparison u, (compare host files git given path before after).Returns [] comparison u := by
  have hrest : Run.Succeeds (do
      Run.log .info .project ("Comparing " ++ before ++ ".." ++ after ++ " in " ++ view.repository)
      let first ← analyzeRevision view before none
      let second ← analyzeRevision view after (some before)
      return ({ before := first, after := second } : CommitComparison)) fun _ => True := by
    refine (Run.Succeeds.logAll _).step ?_
    refine (analyzeRevision_succeeds hbefore).bind fun first _ => ?_
    exact (analyzeRevision_succeeds hafter).bind fun second _ => .pure trivial
  obtain ⟨comparison, u, hreturns, -⟩ := hrest t
  exact ⟨comparison, u, hview.bind_intro hreturns⟩

end Snapshot

end ComponentAudit
