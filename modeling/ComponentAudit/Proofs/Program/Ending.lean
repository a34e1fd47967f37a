import ComponentAudit.Program
import ComponentAudit.Proofs.Project.Search

/-! # How a scan ends

A scan ends in one of three ways: it gives out its report, it ends with a message, or a failure for
which there is no message escapes. Component files never make a failure escape, whatever their bytes
are. What does is listed in `Obstructed`: a log file that cannot be opened, settings that can neither be
used nor be refused, a path that the system does not take, a directory whose rules cannot be told, and a
report that is to go under a name that no file has. -/

namespace ComponentAudit

/-- The run ended with a failure that the program has no message for. -/
def Ending.Escaped : Ending → Prop
  | .exited _ => False
  | .escaped _ => True

instance : DecidablePred Ending.Escaped
  | .exited _ => isFalse id
  | .escaped _ => isTrue trivial

namespace Program

/-- A command line's scan of a path: its settings, and what it finds, which is not nothing. -/
structure Yields (host : Host) (files : Files) (invocation : Invocation) (path : Text)
    (settings : Settings) (scan : Scan) : Prop where
  loaded : settingsFor host files invocation = .ok settings
  scanned : (Scan.run host files (some settings) path).Succeeds (· = scan)
  found : (scan.analyses.isEmpty && scan.skipped.isEmpty) = false

/-- What stands in the way of a scan of a path, besides a path that leads nowhere and settings that
are refused with a message. -/
inductive Obstructed (host : Host) (files : Files) (invocation : Invocation) (path : Text) : Prop
  | logFile {made : Files} {breakdown : Breakdown}
      (h : openLog files invocation.logFile = (made, some breakdown))
  | settings {opened : Files} (hopen : openLog files invocation.logFile = (opened, none))
      (h : Settings.Broken host opened invocation.settingsPath)
  | path {opened : Files} {settings : Settings}
      (hopen : openLog files invocation.logFile = (opened, none))
      (hsettings : settingsFor host opened invocation = .ok settings)
      (h : host.Astray opened (Path.ofText path))
  | directory {opened : Files} {settings : Settings} {root : Location} {entries : List (Text × Tree)}
      (hopen : openLog files invocation.logFile = (opened, none))
      (hsettings : settingsFor host opened invocation = .ok settings)
      (hplace : host.locate opened (Path.ofText path) = .ok root)
      (hnode : opened.node? root = some (.directory entries))
      (h : Discovery.Blocked host opened root)
  | output {opened : Files} {settings : Settings} {scan : Scan} {name : Text}
      (hopen : openLog files invocation.logFile = (opened, none))
      (hyields : Yields host opened invocation path settings scan)
      (hname : invocation.report.output = some name) (h : (Path.ofText name).hasNull = true)

/-- A text is given out: on the output with a line feed at its end, or in the file that was asked
for. -/
def GivenOut (outcome : Outcome) (text : Text) : Option Text → Prop
  | none => outcome.output = text ++ (if text.getLast? = some '\n' then [] else ['\n'])
  | some name =>
    outcome.files.node? (outcome.files.resolve (Path.ofText name)) = some (.file (Utf8.encode text))

/-- The report of a scan under the settings of a command line. -/
def IsReport (host : Host) (files : Files) (invocation : Invocation) (path : Text)
    (mode : Option FilterMode) (text : Text) : Prop :=
  ∃ settings scan, Yields host files invocation path settings scan ∧
    text = renderScan { extraBuiltins := settings.options.extraBuiltins } settings.format mode
      scan.analyses

/-- A run that came to its end: with the report of the scan given out, or with a message. -/
inductive Concluded (host : Host) (files : Files) (invocation : Invocation) (path : Text)
    (mode : Option FilterMode) (outcome : Outcome) : Prop
  | reported {opened : Files} {text : Text}
      (hopen : openLog files invocation.logFile = (opened, none))
      (hreport : IsReport host opened invocation path mode text)
      (hgiven : GivenOut outcome text invocation.report.output) (hend : outcome.ending = .exited 0)
  | refused {message : Text} (hmessage : message ≠ []) (hshown : message <:+ outcome.errorOutput)
      (houtput : outcome.output = []) (hend : outcome.ending = .exited 1)

theorem settingsFor_breaksOff {host : Host} {files : Files} {invocation : Invocation} :
    BreaksOff (settingsFor host files invocation) ↔
      Settings.Broken host files invocation.settingsPath := by
  simp only [settingsFor, BreaksOff.bind_iff, Settings.load_breaksOff, BreaksOff.not_pure, and_false,
    exists_false, or_false]

/-- What a scan has to say: its report, or a message in its place. -/
def IsAnswer (host : Host) (files : Files) (invocation : Invocation) (path : Text)
    (mode : Option FilterMode) : Except Text Text → Prop
  | .error message => message ≠ []
  | .ok text => IsReport host files invocation path mode text

section Body

variable {host : Host} {files : Files} {git : Git} {invocation : Invocation} {path : Text}
  {mode : Option FilterMode} {settings : Settings} {root : Location} {entries : List (Text × Tree)}

theorem body_breaks_settings (h : Settings.Broken host files invocation.settingsPath) :
    (body host files git invocation).Breaks := by
  obtain ⟨breakdown, hsettings⟩ := settingsFor_breaksOff.mpr h
  refine (Run.Succeeds.logAll _).step_breaks ?_
  rw [hsettings]
  exact ⟨breakdown, Run.fails_throw _⟩

/-- Settings that are refused end a scan with a message. -/
theorem body_refused {error : SettingsError}
    (h : settingsFor host files invocation = .error (.invalid error)) :
    (body host files git invocation).Succeeds (IsAnswer host files invocation path mode) := by
  refine (Run.Succeeds.logAll _).step ?_
  rw [h]
  exact .pure (by simp [IsAnswer])

variable (hcommand : invocation.command = .scan path mode)
include hcommand

/-- No message stands for a scan that breaks off. -/
theorem body_breaks_scan (hsettings : settingsFor host files invocation = .ok settings)
    (h : (Scan.run host files (some settings) path).Breaks) :
    (body host files git invocation).Breaks := by
  obtain ⟨breakdown, hfails⟩ := h
  refine (Run.Succeeds.logAll _).step_breaks ⟨breakdown, ?_⟩
  simp only [hsettings, hcommand]
  exact Run.Fails.tryCatch_fails (hfails.bind _) (Run.fails_throw _)

/-- A path that leads nowhere ends a scan with a message. -/
theorem body_pathNotFound (hsettings : settingsFor host files invocation = .ok settings)
    (h : (Scan.run host files (some settings) path).Fails (.pathNotFound path)) :
    (body host files git invocation).Succeeds (IsAnswer host files invocation path mode) := by
  refine (Run.Succeeds.logAll _).step ?_
  simp only [hsettings, hcommand]
  exact Run.Fails.tryCatch_succeeds (h.bind _) (.pure (by simp [IsAnswer]))

theorem body_reports {scan : Scan} (h : Yields host files invocation path settings scan) :
    (body host files git invocation).Succeeds (· = .ok (renderScan
      { extraBuiltins := settings.options.extraBuiltins } settings.format mode scan.analyses)) := by
  have hreport : (report host files git settings (.scan path mode)).Succeeds (· = .ok (renderScan
      { extraBuiltins := settings.options.extraBuiltins } settings.format mode scan.analyses)) := by
    refine h.scanned.step ?_
    rw [if_neg (by simp [h.found])]
    exact .pure rfl
  refine (Run.Succeeds.logAll _).step ?_
  simp only [h.loaded, hcommand]
  exact hreport.tryCatch _

/-- A scan that finds nothing ends with a message. -/
theorem body_answers (hsettings : settingsFor host files invocation = .ok settings)
    (h : (Scan.run host files (some settings) path).Settles) :
    (body host files git invocation).Succeeds (IsAnswer host files invocation path mode) := by
  obtain ⟨scan, hscan⟩ := h
  cases hfound : scan.analyses.isEmpty && scan.skipped.isEmpty with
  | true =>
    have hreport : (report host files git settings (.scan path mode)).Succeeds
        (IsAnswer host files invocation path mode) := by
      refine hscan.step ?_
      rw [if_pos hfound]
      exact .pure (by simp [IsAnswer])
    refine (Run.Succeeds.logAll _).step ?_
    simp only [hsettings, hcommand]
    exact hreport.tryCatch _
  | false =>
    have hyields : Yields host files invocation path settings scan := ⟨hsettings, hscan, hfound⟩
    refine (body_reports hcommand hyields).imp fun answer hanswer => ?_
    rw [hanswer]
    exact ⟨settings, scan, hyields, rfl⟩

theorem body_succeeds (hdirect : files.workingDirectory.Direct)
    (hbroken : ¬ Settings.Broken host files invocation.settingsPath)
    (hpath : ∀ settings, settingsFor host files invocation = .ok settings →
      ¬ host.Astray files (Path.ofText path))
    (hdirectory : ∀ settings root entries, settingsFor host files invocation = .ok settings →
      host.locate files (Path.ofText path) = .ok root →
      files.node? root = some (.directory entries) → ¬ Discovery.Blocked host files root) :
    (body host files git invocation).Succeeds (IsAnswer host files invocation path mode) := by
  rw [← settingsFor_breaksOff] at hbroken
  cases hsettings : settingsFor host files invocation with
  | error error =>
    cases error with
    | broken breakdown => exact absurd ⟨breakdown, hsettings⟩ hbroken
    | invalid error => exact body_refused hsettings
  | ok settings =>
    obtain ⟨root, hplace, hfits⟩ := Host.exists_locate (hpath settings hsettings)
    cases hcontains : files.contains root with
    | false =>
      exact body_pathNotFound hcommand hsettings (Scan.run_pathNotFound hplace hfits hcontains _)
    | true =>
      refine body_answers hcommand hsettings (Scan.run_settles hplace hdirect hfits hcontains ?_ _)
      intro entries hnode
      exact hdirectory settings root entries hsettings hplace hnode

end Body

section Run

variable {host : Host} {files opened : Files} {git : Git} {invocation : Invocation} {path : Text}
  {mode : Option FilterMode} {outcome : Outcome}

/-- Opening the log does not change where commands run. -/
theorem workingDirectory_of_openLog {logFile : Option Text}
    (h : openLog files logFile = (opened, none)) :
    opened.workingDirectory = files.workingDirectory := by
  cases logFile with
  | none => rw [← (Prod.mk.inj h).1]
  | some name =>
    have hmade := files.workingDirectory_makeDirectory (Path.ofText name).parent
    unfold openLog at h
    simp only at h
    split at h
    · cases h
    · split at h
      · cases h
      · rename_i made hmake
        rw [hmake] at hmade
        split at h
        · cases h
        · split at h
          · rename_i written happend
            rw [← (Prod.mk.inj h).1, Files.workingDirectory_of_append happend]
            exact hmade
          · cases h

theorem Concluded.not_escaped (h : Concluded host files invocation path mode outcome) :
    ¬ outcome.ending.Escaped := by
  cases h with
  | reported _ _ _ hend =>
    rw [hend]
    exact id
  | refused _ _ _ hend =>
    rw [hend]
    exact id

/-- A report is given out, or the message says why it cannot be written. -/
theorem concluded_emit {text : Text} (hopen : openLog files invocation.logFile = (opened, none))
    (hreport : IsReport host opened invocation path mode text)
    (hname : ∀ name, invocation.report.output = some name → (Path.ofText name).hasNull = false)
    (houtput : outcome.output = []) (hend : outcome.ending = .exited 0) :
    Concluded host files invocation path mode (emit outcome text invocation.report.output) := by
  cases htarget : invocation.report.output with
  | none =>
    refine .reported hopen hreport ?_ hend
    rw [htarget]
    simp only [GivenOut, emit, beq_iff_eq]
    split <;> simp
  | some name =>
    have hnull : ¬ (Path.ofText name).hasNull = true := by simp [hname name htarget]
    cases hwrite : outcome.files.write (Path.ofText name) (Utf8.encode text) with
    | ok written =>
      refine .reported hopen hreport ?_ ?_
      · rw [htarget]
        simp only [GivenOut, emit, if_neg hnull, hwrite]
        exact Files.node?_of_write hwrite
      · simp only [emit, if_neg hnull, hwrite]
        exact hend
    | error error =>
      have hshown : (emit outcome text (some name)).errorOutput =
          outcome.errorOutput ++ ("Unable to write " ++ name ++ ": " ++ error.message ++ "\n") := by
        simp only [emit, if_neg hnull, hwrite, List.append_assoc]
      refine .refused ?_ ⟨_, hshown.symm⟩ ?_ ?_
      · simp
      · simp only [emit, if_neg hnull, hwrite]
        exact houtput
      · simp only [emit, if_neg hnull, hwrite]

variable (hdirect : files.workingDirectory.Direct) (hcommand : invocation.command = .scan path mode)
include hdirect hcommand

theorem runInvocation_escaped (h : Obstructed host files invocation path) :
    (runInvocation host files git invocation).ending.Escaped := by
  have hbody : ∀ {opened}, openLog files invocation.logFile = (opened, none) →
      (body host opened git invocation).Breaks →
        (runInvocation host files git invocation).ending.Escaped := by
    intro opened hopen hbreaks
    obtain ⟨breakdown, hfails⟩ := hbreaks
    simp only [runInvocation, hopen, hfails.result]
    trivial
  cases h with
  | logFile h =>
    simp only [runInvocation, h]
    trivial
  | settings hopen h => exact hbody hopen (body_breaks_settings h)
  | path hopen hsettings h =>
    exact hbody hopen (body_breaks_scan hcommand hsettings (Scan.run_breaks_astray h _))
  | directory hopen hsettings hplace hnode h =>
    have hopened : Location.Direct (Files.workingDirectory _) :=
      (workingDirectory_of_openLog hopen).symm ▸ hdirect
    exact hbody hopen (body_breaks_scan hcommand hsettings
      (Scan.run_breaks_blocked hplace hopened hnode h _))
  | output hopen hyields hname h =>
    have hreports := @body_reports host _ git invocation path mode _ hcommand _ hyields
    obtain ⟨answer, hresult, rfl⟩ := hreports.result
    simp only [runInvocation, hopen, hresult, hname, emit, if_pos h]
    trivial

theorem runInvocation_concluded (h : ¬ Obstructed host files invocation path) :
    Concluded host files invocation path mode (runInvocation host files git invocation) := by
  obtain ⟨opened, breakdown, hopen⟩ : ∃ opened breakdown,
      openLog files invocation.logFile = (opened, breakdown) := ⟨_, _, rfl⟩
  cases breakdown with
  | some breakdown => exact absurd (.logFile hopen) h
  | none =>
    have hopened : opened.workingDirectory.Direct :=
      (workingDirectory_of_openLog hopen).symm ▸ hdirect
    have hbody : (body host opened git invocation).Succeeds
        (IsAnswer host opened invocation path mode) :=
      body_succeeds hcommand hopened (fun hbroken => h (.settings hopen hbroken))
        (fun settings hsettings hastray => h (.path hopen hsettings hastray))
        fun settings root entries hsettings hplace hnode hblocked =>
          h (.directory hopen hsettings hplace hnode hblocked)
    obtain ⟨answer, hresult, hanswer⟩ := hbody.result
    simp only [runInvocation, hopen, hresult]
    cases answer with
    | error message => exact .refused hanswer (List.suffix_append _ _) rfl rfl
    | ok text =>
      refine concluded_emit hopen hanswer (fun name hname => ?_) rfl rfl
      obtain ⟨settings, scan, hyields, -⟩ := hanswer
      simpa using fun hnull => h (.output hopen hyields hname hnull)

end Run

/-- A project whose component is no text, with what stands in front of the component. -/
def strayFiles (others : List (Text × Tree)) : Files :=
  let component : Text × Tree := ("App.svelte", .file [0xff])
  ⟨.directory [("app", .directory (others ++ [component]))], ⟨["app"]⟩⟩

/-- A version control system that is not there. -/
def absentGit : Git := ⟨fun _ => .error (.notStarted "No such file or directory")⟩

/-- The scan of the working directory. -/
def plainScan : Invocation := ⟨false, none, .scan "." none, {}⟩

/-- Settings that are missing can be told. -/
theorem not_brokenFile_strayFiles :
    ¬ Settings.BrokenFile Host.plain (strayFiles []) ⟨["app", Settings.fileName]⟩ := by
  intro h
  cases h with
  | overlong h => exact absurd h (by decide)
  | undecodable h => cases h.contains
  | text hread _ => cases hread

end Program

end ComponentAudit
