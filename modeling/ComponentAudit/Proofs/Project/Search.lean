import ComponentAudit.Project.Scan
import ComponentAudit.Proofs.Project.Run
import ComponentAudit.Proofs.Project.Settings
import ComponentAudit.Yaml.Reader

/-! # When a search gets through

A path leads somewhere, or nowhere, or the system gives no answer about it (`Host.Astray`). The files of
a directory can be told unless its ignore file cannot be read or its settings break off
(`Discovery.Blocked`); settings that are refused with a message are passed over. A scan with given
settings comes through exactly if neither stands in its way, whatever the component files hold. -/

namespace ComponentAudit

/-! ## The path of a search -/

/-- A path about which the system gives no answer. -/
def Host.Astray (host : Host) (files : Files) (path : Path) : Prop :=
  host.Unplaced path ∨ ∃ root, host.locate files path = .ok root ∧ files.overlong root.path = true

theorem Host.exists_locate {host : Host} {files : Files} {path : Path} (h : ¬ host.Astray files path) :
    ∃ root, host.locate files path = .ok root ∧ files.overlong root.path = false := by
  obtain ⟨hplaced, hfits⟩ := not_or.mp h
  cases hplace : host.locate files path with
  | error breakdown => exact absurd (Host.locate_eq_error.mp ⟨breakdown, hplace⟩) hplaced
  | ok root =>
    refine ⟨root, rfl, ?_⟩
    simpa using fun hlong => hfits ⟨root, hplace, hlong⟩

/-- Surroundings with a reader and without home directories. -/
def Host.plain : Host := ⟨Yaml.read, fun _ => none⟩

namespace Run

variable {host : Host} {files : Files} {path : Text} {root : Location}

theorem existing_breaks (h : host.Astray files (Path.ofText path)) :
    (existing host files path).Breaks := by
  cases h with
  | inl hplace => exact (orBreak_breaks (Host.locate_eq_error.mpr hplace)).bind _
  | inr hlong =>
    obtain ⟨root, hplace, hlong⟩ := hlong
    exact (orBreak_succeeds hplace).step_breaks ((finds_breaks hlong).bind _)

section Located

variable (hplace : host.locate files (Path.ofText path) = .ok root)
  (hfits : files.overlong root.path = false)
include hplace hfits

theorem existing_succeeds (h : files.contains root = true) :
    (existing host files path).Succeeds (· = root) := by
  refine (orBreak_succeeds hplace).step ((finds_succeeds hfits).step ?_)
  rw [h]
  exact .pure rfl

theorem existing_fails (h : files.contains root = false) :
    (existing host files path).Fails (.pathNotFound path) := by
  refine (orBreak_succeeds hplace).step_fails ((finds_succeeds hfits).step_fails ?_)
  rw [h]
  exact fails_throw _

end Located

/-- A location is searched under its text. -/
theorem existing_text_succeeds (hdirect : root.Direct) (hfits : files.overlong root.path = false)
    (h : files.contains root = true) : (existing host files root.text).Succeeds (· = root) :=
  existing_succeeds (Host.locate_text hdirect files) hfits h

end Run

/-! ## The rules of a directory -/

namespace Discovery

variable {host : Host} {files : Files} {root : Location} {entries : List (Text × Tree)}

/-- A directory whose files cannot be told. -/
inductive Blocked (host : Host) (files : Files) (root : Location) : Prop
  | overlong (h : files.overlong (root.child ignoreFileName).path = true)
  | ignoreFile (h : files.Unreadable (root.child ignoreFileName))
  | settings (h : Settings.BrokenFile host files (root.child Settings.fileName))

/-- A directory whose files can be told can itself be asked about. -/
theorem fits_of_not_blocked (h : ¬ Blocked host files root) : files.overlong root.path = false := by
  simpa using fun hlong => h (.overlong (Files.overlong_child hlong _))

theorem fileRules_breaks (h : files.overlong (root.child ignoreFileName).path = true ∨
    files.Unreadable (root.child ignoreFileName)) : (fileRules files root).Breaks := by
  cases hfits : files.overlong (root.child ignoreFileName).path with
  | true => exact (Run.finds_breaks hfits).bind _
  | false =>
    have hunreadable := h.resolve_left (by simp [hfits])
    have hread : (Run.readText files (root.child ignoreFileName)).Breaks := by
      cases hunreadable with
      | inl h =>
        rw [Run.readText, (Files.readText_eq_undecodable hfits).mpr h]
        exact ⟨_, Run.fails_throw _⟩
      | inr h =>
        obtain ⟨entries, hnode⟩ := h
        rw [Run.readText, Files.readText_of_directory hfits hnode]
        exact ⟨_, Run.fails_throw _⟩
    refine (Run.finds_succeeds hfits).step_breaks ?_
    rw [hunreadable.contains]
    exact hread.bind _

section Directory

variable (hdirect : root.Direct) (hfits : files.overlong root.path = false)
  (hnode : files.node? root = some (.directory entries))
include hdirect hfits hnode

/-- The settings of a directory are those in the file of that name. -/
theorem load_eq_ofFile : Settings.load host files root.path =
    Settings.ofFile host files (root.child Settings.fileName) := by
  rw [Settings.load, Files.fileFor_directory hdirect hfits hnode]
  rfl

theorem settingsRules_breaks (h : Settings.BrokenFile host files (root.child Settings.fileName)) :
    (settingsRules host files root).Breaks := by
  obtain ⟨breakdown, hload⟩ := Settings.ofFile_breaksOff.mpr h
  rw [settingsRules, load_eq_ofFile hdirect hfits hnode, hload]
  exact ⟨breakdown, Run.fails_throw _⟩

end Directory

/-! ## What the rules are -/

/-- The lines of a directory's ignore file; none if there is no such text. -/
def ignoreLines (files : Files) (root : Location) : List Text :=
  match files.readText (root.child ignoreFileName) with
  | .ok text => Text.lines text
  | .error _ => []

/-- The patterns of the settings that a directory holds; none if they cannot be used. -/
def ownPatterns (host : Host) (files : Files) (root : Location) : List Text :=
  match Settings.load host files root.path with
  | .ok settings => settings.excludePaths
  | .error _ => []

theorem fileRules_exact (hfits : files.overlong (root.child ignoreFileName).path = false)
    (h : ¬ files.Unreadable (root.child ignoreFileName)) :
    (fileRules files root).Succeeds (· = IgnoreRule.ofLines (ignoreLines files root)) := by
  refine (Run.finds_succeeds hfits).step ?_
  rw [ignoreLines]
  cases hcontains : files.contains (root.child ignoreFileName) with
  | true =>
    obtain ⟨text, htext⟩ := Files.readText_of_readable hfits hcontains h
    rw [Run.readText, htext]
    exact .pure rfl
  | false =>
    rw [Files.readText_of_missing hfits hcontains]
    exact .pure rfl

section Directory

variable (hdirect : root.Direct) (hnode : files.node? root = some (.directory entries))
include hdirect hnode

/-- Settings that are refused are passed over. -/
theorem settingsRules_exact (hfits : files.overlong root.path = false)
    (h : ¬ Settings.BrokenFile host files (root.child Settings.fileName)) :
    (settingsRules host files root).Succeeds
      (· = IgnoreRule.ofLines (ownPatterns host files root)) := by
  rw [settingsRules, ownPatterns]
  cases hload : Settings.load host files root.path with
  | ok settings => exact .pure rfl
  | error error =>
    cases error with
    | invalid error => exact (Run.Succeeds.logAll _).step (.pure rfl)
    | broken breakdown =>
      rw [load_eq_ofFile hdirect hfits hnode] at hload
      exact absurd (Settings.ofFile_breaksOff.mp ⟨breakdown, hload⟩) h

theorem rules_breaks (hfits : files.overlong root.path = false) (h : Blocked host files root)
    (selection : Selection) : (rules host files root selection).Breaks := by
  by_cases hignore : files.overlong (root.child ignoreFileName).path = true ∨
      files.Unreadable (root.child ignoreFileName)
  · exact (fileRules_breaks hignore).bind _
  · -- the settings are looked at only behind an ignore file that could be read
    obtain ⟨hlong, hreadable⟩ := not_or.mp hignore
    refine (fileRules_exact (by simpa using hlong) hreadable).step_breaks ?_
    cases h with
    | overlong h => exact absurd h hlong
    | ignoreFile h => exact absurd h hreadable
    | settings h => exact (settingsRules_breaks hdirect hfits hnode h).bind _

/-- The rules of three lists, one behind the other. -/
theorem rules_exact (h : ¬ Blocked host files root) (selection : Selection) :
    (rules host files root selection).Succeeds (· = IgnoreRule.ofLines
      (ignoreLines files root ++ ownPatterns host files root ++ selection.excludePaths)) := by
  have hlong : files.overlong (root.child ignoreFileName).path = false := by
    simpa using fun hlong => h (.overlong hlong)
  refine (fileRules_exact hlong fun hfile => h (.ignoreFile hfile)).step ?_
  refine (settingsRules_exact hdirect hnode (fits_of_not_blocked h)
    fun hsettings => h (.settings hsettings)).step (.pure ?_)
  rw [IgnoreRule.ofLines, IgnoreRule.ofLines, IgnoreRule.ofLines, IgnoreRule.ofLines,
    List.filterMap_append, List.filterMap_append]

end Directory

/-! ## Searches -/

variable (hdirect : root.Direct)
include hdirect

theorem find_breaks (hfits : files.overlong root.path = false)
    (hnode : files.node? root = some (.directory entries)) (h : Blocked host files root)
    (selection : Selection) : (find host files selection root.text).Breaks := by
  refine (Run.existing_text_succeeds hdirect hfits (Files.contains_of_node? hnode)).step_breaks ?_
  rw [hnode]
  exact (rules_breaks hdirect hnode hfits h selection).bind _

theorem find_settles (hfits : files.overlong root.path = false) (hcontains : files.contains root = true)
    (h : ∀ entries, files.node? root = some (.directory entries) → ¬ Blocked host files root)
    (selection : Selection) : (find host files selection root.text).Settles := by
  refine .bind (Run.existing_text_succeeds hdirect hfits hcontains) ?_
  split
  · exact .pure _
  · exact .pure _
  · rename_i entries hnode
    refine .bind (rules_exact hdirect hnode (h entries hnode) selection) ?_
    exact .bind (.logAll _) (.pure _)

end Discovery

/-! ## Scans -/

namespace Scan

variable {host : Host} {files : Files} {path : Text} {root : Location} {entries : List (Text × Tree)}

/-- A component file is analysed or skipped, whatever it holds. -/
theorem addFile_settles (files : Files) (options : Options) (scan : Scan) (file : Location) :
    (addFile files options scan file).Settles := by
  unfold addFile
  split
  · exact .bind (.logAll _) (.pure _)
  · exact .bind (.logAll _) (.bind (.analyzeFile _ _ _) (.pure _))

theorem run_breaks_astray (h : host.Astray files (Path.ofText path)) (given : Option Settings) :
    (run host files given path).Breaks :=
  (Run.existing_breaks h).bind _

section Located

variable (hplace : host.locate files (Path.ofText path) = .ok root)
include hplace

theorem run_pathNotFound (hfits : files.overlong root.path = false) (h : files.contains root = false)
    (given : Option Settings) : (run host files given path).Fails (.pathNotFound path) :=
  (Run.existing_fails hplace hfits h).bind _

theorem run_breaks_blocked (hdirect : files.workingDirectory.Direct)
    (hnode : files.node? root = some (.directory entries)) (h : Discovery.Blocked host files root)
    (settings : Settings) : (run host files (some settings) path).Breaks := by
  cases hfits : files.overlong root.path with
  | true => exact run_breaks_astray (.inr ⟨root, hplace, hfits⟩) _
  | false =>
    have hroot := Host.direct_locate hdirect hplace
    refine (Run.existing_succeeds hplace hfits (Files.contains_of_node? hnode)).step_breaks ?_
    exact (Run.Succeeds.pure_self settings).step_breaks ((Discovery.find_breaks hroot hfits hnode h _).bind _)

theorem run_settles (hdirect : files.workingDirectory.Direct)
    (hfits : files.overlong root.path = false) (hcontains : files.contains root = true)
    (h : ∀ entries, files.node? root = some (.directory entries) → ¬ Discovery.Blocked host files root)
    (settings : Settings) : (run host files (some settings) path).Settles := by
  have hroot := Host.direct_locate hdirect hplace
  refine .bind (Run.existing_succeeds hplace hfits hcontains) (.bind (.pure_self settings) ?_)
  obtain ⟨found, hfound⟩ := Discovery.find_settles hroot hfits hcontains h settings.selection
  exact .bind hfound (.bind (.logAll _) (.foldlM (addFile_settles files _) _ _))

end Located

end Scan

end ComponentAudit
