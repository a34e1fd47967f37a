import ComponentAudit.History.Recorded
import ComponentAudit.Proofs.History.Snapshot
import ComponentAudit.Proofs.Text.Break

/-! # Answers that are read back

The fields of a commit and the paths of files are answered one to a line, with a line feed behind each.
They are read line by line, but a line ends at other characters as well, so what was answered is read
back exactly if none of these splits a field or a path (`Git.lossless_iff`). -/

namespace ComponentAudit

open RecordedHistory (answerLines)
open Text (lines trim trimmedLines Intact)

theorem answerLines_eq {parts : List Text} (h : parts ≠ []) :
    answerLines parts = parts.flatMap (· ++ ['\n']) := by
  induction parts with
  | nil => exact absurd rfl h
  | cons first more ih =>
    cases more with
    | nil => simp [answerLines, Text.join_singleton]
    | cons next more =>
      have hmore := ih (by simp)
      rw [answerLines] at hmore
      rw [answerLines, Text.join_cons_cons, List.append_assoc, hmore, List.flatMap_cons]
      rfl

theorem map_trim_lines {parts : List Text} (h : parts ≠ []) :
    (lines (answerLines parts)).map trim = trimmedLines parts := by
  rw [answerLines_eq h, Text.lines_flatMap, trimmedLines]

/-! ## Commits -/

/-- A commit is read from the first four lines of an answer that has so many. -/
theorem Commit.ofAnswer?_eq_some_iff {answer : Text} {commit : Commit} (h : 4 ≤ (lines answer).length) :
    Commit.ofAnswer? answer = some commit ↔
      ((lines answer).map trim).take 4 = [commit.hash, commit.author, commit.date, commit.message] ∧
        commit.hash ≠ [] := by
  obtain ⟨hash, author, date, message⟩ := commit
  rw [← List.length_map trim] at h
  simp only [Commit.ofAnswer?]
  match (lines answer).map trim, h with
  | first :: second :: third :: fourth :: rest, _ =>
    by_cases hfirst : first = []
    · simp only [hfirst, List.getD_cons_zero, List.isEmpty_nil, if_true, reduceCtorEq, false_iff,
        not_and, List.take_succ_cons, List.cons.injEq]
      rintro ⟨rfl, -⟩ hne
      exact hne rfl
    · have hkept : first.isEmpty = false := by simpa using hfirst
      simp only [hkept, List.getD_cons_zero, List.getD_cons_succ, Bool.false_eq_true, if_false,
        Option.some.injEq, Commit.mk.injEq, List.take_succ_cons, List.take_zero, List.cons.injEq,
        and_true]
      constructor
      · rintro ⟨rfl, rfl, rfl, rfl⟩
        exact ⟨⟨rfl, rfl, rfl, rfl⟩, hfirst⟩
      · rintro ⟨⟨rfl, rfl, rfl, rfl⟩, -⟩
        exact ⟨rfl, rfl, rfl, rfl⟩

theorem le_length_trimmedLines (parts : List Text) : parts.length ≤ (trimmedLines parts).length := by
  induction parts with
  | nil => exact Nat.le_refl 0
  | cons part parts ih =>
    have hline := List.length_pos_iff.mpr (Text.lines_ne_nil (t := part ++ ['\n']) (by simp))
    simp only [trimmedLines, List.flatMap_cons, List.map_append, List.length_append, List.length_map,
      List.length_cons] at ih ⊢
    omega

theorem Commit.ofAnswer?_answerLines {hash author date subject : Text} (h : ¬ Blank hash) :
    Commit.ofAnswer? (answerLines [hash, author, date, subject]) =
        some ⟨trim hash, trim author, trim date, trim subject⟩ ↔
      Intact [hash, author, date, subject] := by
  have hlines := @map_trim_lines [hash, author, date, subject] (by simp)
  have hlength : 4 ≤ (lines (answerLines [hash, author, date, subject])).length := by
    rw [← List.length_map trim, hlines]
    exact le_length_trimmedLines [hash, author, date, subject]
  have hne : trim hash ≠ [] := mt Text.trim_eq_nil_iff.mp h
  rw [Commit.ofAnswer?_eq_some_iff hlength, hlines, ← Text.take_trimmedLines_eq_iff]
  exact and_iff_left hne

/-! ## Paths -/

/-- No line break stands in any of the paths. -/
def Unbroken (paths : List Text) : Prop := ∀ path ∈ paths, ∀ c ∈ path, isLineBreak c = false

instance : DecidablePred Unbroken := fun paths =>
  decidable_of_iff ((paths.all fun path => path.all (!isLineBreak ·)) = true) (by simp [Unbroken])

theorem mem_pathsOfAnswer {answer path : Text} (h : path ∈ pathsOfAnswer answer) :
    ∀ c ∈ path, isLineBreak c = false := by
  intro c hc
  obtain ⟨line, hline, rfl⟩ := List.mem_map.mp (List.mem_filter.mp h).1
  exact (Text.of_mem_lines hline ((Text.trim_infix line).subset hc)).2

theorem pathsOfAnswer_answerLines (paths : List Text) :
    pathsOfAnswer (answerLines paths) = (trimmedLines paths).filter (!·.isEmpty) := by
  by_cases h : paths = []
  · rw [h]
    rfl
  · rw [pathsOfAnswer, map_trim_lines h]

/-- Paths without white space around them are read back exactly if no line break splits them. -/
theorem pathsOfAnswer_answerLines_eq_iff {paths : List Text}
    (h : ∀ path ∈ paths, path ≠ [] ∧ trim path = path) :
    pathsOfAnswer (answerLines paths) = paths ↔ Unbroken paths := by
  constructor
  · intro hread path hpath
    exact mem_pathsOfAnswer (hread.symm ▸ hpath)
  · intro hunbroken
    have hlines : trimmedLines paths = paths.map trim := by
      have hpart := fun path hpath => Text.lines_of_unbroken (hunbroken path hpath)
      rw [trimmedLines, List.flatMap_def, List.map_congr_left hpart, ← List.flatMap_def,
        List.flatMap_singleton']
    have htrim : paths.map trim = paths := by
      rw [List.map_congr_left fun path hpath => (h path hpath).2, List.map_id']
    rw [pathsOfAnswer_answerLines, hlines, htrim, List.filter_eq_self]
    intro path hpath
    simpa using (h path hpath).1

/-! ## Questions -/

namespace Git

variable {git : Git} {directory revision answer : Text}

/-- What is returned of an answer. -/
theorem ask_return_iff {α : Type} {query : GitQuery} (h : git.answer query = .ok answer)
    (read : Text → α) (value : α) :
    Run.Succeeds (do return read (← git.ask directory query)) (· = value) ↔ read answer = value := by
  have hread : Run.Succeeds (do return read (← git.ask directory query)) (· = read answer) :=
    (ask_succeeds h).step (.pure rfl)
  exact ⟨fun hvalue => hread.eq hvalue, fun heq => heq ▸ hread⟩

theorem commit_returns_iff {commit : Commit} (h : git.answer (.commit revision) = .ok answer) :
    (git.commit directory revision).Succeeds (· = commit) ↔ Commit.ofAnswer? answer = some commit := by
  cases hread : Commit.ofAnswer? answer with
  | none =>
    have hfails : (git.commit directory revision).Fails (.git (.unknownRevision revision)) := by
      refine (ask_succeeds h).step_fails ?_
      rw [hread]
      exact Run.fails_throw _
    simp only [reduceCtorEq, iff_false]
    intro hsucceeds
    obtain ⟨_, hresult, -⟩ := hsucceeds.result
    cases hresult.symm.trans hfails.result
  | some found =>
    have hfound : (git.commit directory revision).Succeeds (· = found) := by
      refine (ask_succeeds h).step ?_
      rw [hread]
      exact .pure rfl
    rw [Option.some.injEq]
    exact ⟨fun hcommit => hfound.eq hcommit, fun heq => heq ▸ hfound⟩

/-- What is answered with line feeds between the parts is read back, the fields of a commit trimmed and
the paths as they are, exactly if no other line break gets in the way. -/
theorem lossless_iff (git : Git) (directory revision : Text) :
    (∀ hash author date subject, ¬ Blank hash →
      git.answer (.commit revision) = .ok (answerLines [hash, author, date, subject]) →
      ((git.commit directory revision).Succeeds
          (· = ⟨trim hash, trim author, trim date, trim subject⟩) ↔
        Intact [hash, author, date, subject])) ∧
    ∀ paths, (∀ path ∈ paths, path ≠ [] ∧ trim path = path) →
      (git.answer (.files revision) = .ok (answerLines paths) →
        ((git.files directory revision).Succeeds (· = paths) ↔ Unbroken paths)) ∧
      ∀ base, git.answer (match base with
          | none => .changes revision
          | some base => .changesBetween base revision) = .ok (answerLines paths) →
        ((git.changes directory revision base).Succeeds (· = paths) ↔ Unbroken paths) := by
  refine ⟨fun hash author date subject hhash hanswer => ?_, fun paths hpaths => ⟨fun hanswer => ?_,
    fun base hanswer => ?_⟩⟩
  · rw [commit_returns_iff hanswer, Commit.ofAnswer?_answerLines hhash]
  · rw [← pathsOfAnswer_answerLines_eq_iff hpaths]
    exact ask_return_iff hanswer pathsOfAnswer paths
  · rw [← pathsOfAnswer_answerLines_eq_iff hpaths]
    exact ask_return_iff hanswer pathsOfAnswer paths

/-- A repository with one commit of some files. -/
def singleGit (author : Text) (paths : List Text) : Git where
  answer
    | .topLevel => .ok "/repo\n"
    | .commit _ => .ok (answerLines ["c0ffee", author, "2024-01-01", "Start"])
    | .files _ | .changes _ | .changesBetween .. => .ok (answerLines paths)
    | .content .. => .ok []

theorem lossless_iff_singleGit :
    let paths : List Text := ["src/App.svelte", "src/lib/Side menu.svelte", "tests/é.svelte"]
    let git := singleGit "Ann Lee\r" paths
    (git.commit "/repo" "main").Succeeds (· = ⟨"c0ffee", "Ann Lee", "2024-01-01", "Start"⟩) ∧
      (git.files "/repo" "main").Succeeds (· = paths) ∧
      (git.changes "/repo" "main" none).Succeeds (· = paths) ∧
      (git.changes "/repo" "main" (some "v1")).Succeeds (· = paths) := by
  intro paths git
  have hinked : ∀ path ∈ paths, path ≠ [] ∧ trim path = path := by decide
  have hunbroken : Unbroken paths := by decide
  obtain ⟨hcommit, hanswers⟩ := lossless_iff git "/repo" "main"
  obtain ⟨hfiles, hchanges⟩ := hanswers paths hinked
  refine ⟨(hcommit "c0ffee" "Ann Lee\r" "2024-01-01" "Start" ?_ rfl).mpr ?_, (hfiles rfl).mpr hunbroken,
    (hchanges none rfl).mpr hunbroken, (hchanges (some "v1") rfl).mpr hunbroken⟩
  · decide
  · refine ⟨?_, .inl (.inl rfl), ?_, .inl (.inr rfl), ?_, .inl (.inl rfl), ?_, .inl (.inl rfl), trivial⟩
    all_goals decide

/-- A line separator in a name shifts the fields behind it, and a vertical tab makes two paths of one. -/
theorem answers_split :
    let git := singleGit "Ann\u2028Lee" ["a\x0bb.svelte"]
    (git.commit "/repo" "main").result.1 = .ok ⟨"c0ffee", "Ann", "Lee", "2024-01-01"⟩ ∧
      ¬ (git.commit "/repo" "main").Succeeds (· = ⟨"c0ffee", "Ann\u2028Lee", "2024-01-01", "Start"⟩) ∧
      (git.files "/repo" "main").result.1 = .ok ["a", "b.svelte"] ∧
      ¬ (git.files "/repo" "main").Succeeds (· = [("a\x0bb.svelte" : Text)]) := by
  intro git
  have hcommit : (git.commit "/repo" "main").result.1 = .ok ⟨"c0ffee", "Ann", "Lee", "2024-01-01"⟩ := rfl
  have hfiles : (git.files "/repo" "main").result.1 = .ok ["a", "b.svelte"] := rfl
  refine ⟨hcommit, fun h => ?_, hfiles, fun h => ?_⟩
  · obtain ⟨_, hresult, rfl⟩ := h.result
    exact absurd (Except.ok.inj (hcommit.symm.trans hresult)) (by decide)
  · obtain ⟨_, hresult, rfl⟩ := h.result
    exact absurd (Except.ok.inj (hfiles.symm.trans hresult)) (by decide)

end Git

end ComponentAudit
