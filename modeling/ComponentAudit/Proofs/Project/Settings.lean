import ComponentAudit.Proofs.Project.Files

/-! # When settings cannot be told

The settings for a path are read, or they are refused with a message, or reading them breaks off. What
breaks it off is listed in `Settings.Broken`: a path that names no place, a path that is too long, a file
that is no text, a reader that gives up, and a number that cannot be written out. Nothing is assumed of
the reader. -/

namespace ComponentAudit

/-! ## Computations that break off -/

/-- A computation that ends without a message. -/
def BreaksOff {α : Type} (result : Except LoadError α) : Prop :=
  ∃ breakdown, result = .error (.broken breakdown)

namespace BreaksOff

variable {α β ε : Type}

theorem broken (breakdown : Breakdown) : BreaksOff (.error (.broken breakdown) : Except LoadError α) :=
  ⟨breakdown, rfl⟩

@[simp] theorem not_ok (a : α) : ¬ BreaksOff (.ok a) := by
  intro ⟨breakdown, h⟩
  cases h

@[simp] theorem not_pure (a : α) : ¬ BreaksOff (pure a) := not_ok a

@[simp] theorem not_invalid (error : SettingsError) :
    ¬ BreaksOff (.error (.invalid error) : Except LoadError α) := by
  intro ⟨breakdown, h⟩
  cases h

/-- A chain of steps breaks off at one of them, behind steps that went through. -/
theorem bind_iff {step : Except LoadError α} {next : α → Except LoadError β} :
    BreaksOff (step >>= next) ↔ BreaksOff step ∨ ∃ a, step = .ok a ∧ BreaksOff (next a) := by
  cases step with
  | error error =>
    constructor
    · intro ⟨breakdown, h⟩
      exact .inl ⟨breakdown, congrArg Except.error (Except.error.inj h)⟩
    · intro h
      obtain ⟨breakdown, h⟩ | ⟨a, h, -⟩ := h
      · exact ⟨breakdown, congrArg Except.error (Except.error.inj h)⟩
      · cases h
  | ok a =>
    constructor
    · intro h
      exact .inr ⟨a, rfl, h⟩
    · intro h
      obtain ⟨breakdown, h⟩ | ⟨b, h, hnext⟩ := h
      · cases h
      · rw [Except.ok.inj h]
        exact hnext

theorem mapError_iff {step : Except ε α} {breakdown : ε → Breakdown} :
    BreaksOff (step.mapError (LoadError.broken ∘ breakdown)) ↔ ∃ error, step = .error error := by
  cases step with
  | error error => exact iff_of_true ⟨breakdown error, rfl⟩ ⟨error, rfl⟩
  | ok a => exact iff_of_false (not_ok a) (by simp)

theorem mapError_broken {step : Except Breakdown α} :
    BreaksOff (step.mapError LoadError.broken) ↔ ∃ breakdown, step = .error breakdown :=
  @mapError_iff α Breakdown step id

theorem mapError_eq_ok {step : Except ε α} {f : ε → LoadError} {a : α} :
    step.mapError f = .ok a ↔ step = .ok a := by
  cases step with
  | error error =>
    refine iff_of_false (fun h => ?_) (by simp)
    cases h
  | ok b =>
    constructor
    · intro h
      exact congrArg Except.ok (Except.ok.inj h)
    · intro h
      exact congrArg Except.ok (Except.ok.inj h)

end BreaksOff

/-! ## Paths that name no place -/

namespace Host

variable {host : Host} {path : Path}

/-- A path that starts in a home directory that is not known. -/
def Homeless (host : Host) (path : Path) : Prop :=
  ∃ user, path.user? = some user ∧ (host.homePath? user = none ∨ '\x00' ∈ user)

/-- A path that names no place. -/
def Unplaced (host : Host) (path : Path) : Prop := host.Homeless path ∨ path.hasNull = true

theorem expand_eq_error :
    (∃ breakdown, host.expand path = .error breakdown) ↔ host.Homeless path := by
  unfold expand Homeless
  cases path.user? with
  | none => simp
  | some user =>
    simp only [List.contains_iff_mem, Option.some.injEq, exists_eq_left']
    by_cases hnull : '\x00' ∈ user
    · simp [hnull]
    · cases host.homePath? user <;> simp [hnull]

theorem locate_eq_error {files : Files} :
    (∃ breakdown, host.locate files path = .error breakdown) ↔ host.Unplaced path := by
  rw [Unplaced, ← expand_eq_error]
  unfold locate
  cases hexpand : host.expand path with
  | error breakdown => exact iff_of_true ⟨breakdown, rfl⟩ (.inl ⟨breakdown, rfl⟩)
  | ok expanded =>
    rw [or_iff_right (by simp), ← (expands_of_expand hexpand).hasNull_eq]
    show (∃ breakdown, (do return files.resolve (← expanded.checked)) = .error breakdown) ↔ _
    cases hnull : expanded.hasNull with
    | true =>
      rw [Path.checked_of_null hnull]
      exact iff_of_true ⟨_, rfl⟩ rfl
    | false =>
      rw [Path.checked_of_clean hnull]
      exact iff_of_false (by simp [bind, Except.bind, pure, Except.pure]) (by simp)

end Host

namespace Settings

/-! ## Numbers that are written out -/

/-- Whether a list of texts holds a number that cannot be written out. -/
def holdsLong : Option Yaml → Bool
  | some (.seq items) => items.any Yaml.isLong
  | _ => false

/-- A number that has to be written out and cannot be. The options are looked at only if there is no
fault in the output format. -/
inductive Unwritable (document : Yaml) : Prop
  | extensions (h : holdsLong (document.get? "extensions") = true)
  | excludePaths (h : holdsLong (document.get? "exclude_paths") = true)
  | format {value : Yaml} (hvalue : formatValue? document = some value) (h : value.isLong = true)
  | options {format : OutputFormat} {analysis : Yaml} (hformat : formatOf document = .ok format)
      (hanalysis : document.get? "analysis" = some analysis)
      (h : holdsLong (analysis.get? "global_ids") = true ∨
        holdsLong (analysis.get? "extra_builtin_methods") = true)

theorem mapM_scalarText? (items : List Yaml) : items.mapM scalarText? =
    if items.any Yaml.isLong then .error (.broken .longNumber) else .ok (items.map plainText?) := by
  induction items with
  | nil => rfl
  | cons item items ih =>
    rw [List.mapM_cons, ih, scalarText?, List.any_cons]
    cases item.isLong with
    | true => rfl
    | false => cases items.any Yaml.isLong <;> rfl

/-- A list of texts is read unless it holds a number that cannot be written out. -/
theorem textList_eq (value : Option Yaml) : ∃ texts, textList value =
    if holdsLong value then .error (.broken .longNumber) else .ok texts := by
  unfold textList
  split
  · rename_i items
    refine ⟨(items.map plainText?).reduceOption, ?_⟩
    rw [mapM_scalarText?, holdsLong]
    split <;> rfl
  · exact ⟨_, rfl⟩
  · rename_i hlist _
    refine ⟨[], (if_neg ?_).symm⟩
    unfold holdsLong
    split
    · exact absurd rfl (hlist _)
    · simp

theorem textList_breaksOff {value : Option Yaml} :
    BreaksOff (textList value) ↔ holdsLong value = true := by
  obtain ⟨texts, h⟩ := textList_eq value
  rw [h]
  split
  · exact iff_of_true (.broken _) ‹_›
  · exact iff_of_false (BreaksOff.not_ok texts) ‹_›

theorem textList_eq_ok {value : Option Yaml} (h : ¬ holdsLong value = true) :
    ∃ texts, textList value = .ok texts := by
  obtain ⟨texts, htexts⟩ := textList_eq value
  exact ⟨texts, htexts.trans (if_neg h)⟩

theorem formatNamed_not_breaksOff (name : Text) : ¬ BreaksOff (formatNamed name) := by
  unfold formatNamed
  simp only
  split
  · exact BreaksOff.not_ok _
  · exact BreaksOff.not_invalid _

theorem formatOf_breaksOff {document : Yaml} : BreaksOff (formatOf document) ↔
    ∃ value, formatValue? document = some value ∧ value.isLong = true := by
  unfold formatOf
  cases hvalue : formatValue? document with
  | none => simp
  | some value =>
    simp only [BreaksOff.bind_iff, Option.some.injEq, exists_eq_left']
    rw [scalarText?]
    split
    · exact iff_of_true (.inl (.broken _)) ‹_›
    · refine iff_of_false ?_ ‹_›
      intro h
      obtain h | ⟨text, -, h⟩ := h
      · exact BreaksOff.not_ok _ h
      · cases text with
        | none => exact BreaksOff.not_ok _ h
        | some name => exact formatNamed_not_breaksOff name h

theorem globalIdsOf_breaksOff {analysis : Yaml} :
    BreaksOff (globalIdsOf analysis) ↔ holdsLong (analysis.get? "global_ids") = true := by
  unfold globalIdsOf
  cases analysis.get? "global_ids" with
  | none => exact iff_of_false (BreaksOff.not_ok _) (by simp [holdsLong])
  | some found => exact textList_breaksOff

theorem globalIdsOf_eq_ok {analysis : Yaml} (h : ¬ holdsLong (analysis.get? "global_ids") = true) :
    ∃ names, globalIdsOf analysis = .ok names := by
  unfold globalIdsOf
  cases hfound : analysis.get? "global_ids" with
  | none => exact ⟨_, rfl⟩
  | some found => exact textList_eq_ok (hfound ▸ h)

theorem optionsOf_breaksOff {document : Yaml} : BreaksOff (optionsOf document) ↔
    ∃ analysis, document.get? "analysis" = some analysis ∧
      (holdsLong (analysis.get? "global_ids") = true ∨
        holdsLong (analysis.get? "extra_builtin_methods") = true) := by
  unfold optionsOf
  cases document.get? "analysis" with
  | none => simp
  | some analysis =>
    simp only [BreaksOff.bind_iff, globalIdsOf_breaksOff, textList_breaksOff, Option.some.injEq,
      exists_eq_left']
    by_cases hglobal : holdsLong (analysis.get? "global_ids") = true
    · exact iff_of_true (.inl hglobal) (.inl hglobal)
    · rw [or_iff_right hglobal, or_iff_right hglobal]
      obtain ⟨names, hnames⟩ := globalIdsOf_eq_ok hglobal
      constructor
      · intro h
        obtain ⟨_, -, h⟩ := h
        exact h.resolve_right fun ⟨_, _, h⟩ => BreaksOff.not_ok _ h
      · intro h
        exact ⟨names, hnames, .inl h⟩

/-- Nothing has to be written out of what is no mapping. -/
theorem not_unwritable {document : Yaml} (h : ∀ name, document.get? name = none) :
    ¬ Unwritable document := by
  have hlist : ∀ name, holdsLong (document.get? name) = false := by
    intro name
    rw [h]
    rfl
  intro hlong
  cases hlong with
  | extensions hlong => exact Bool.false_ne_true ((hlist _).symm.trans hlong)
  | excludePaths hlong => exact Bool.false_ne_true ((hlist _).symm.trans hlong)
  | format hvalue _ =>
    rw [formatValue?, h] at hvalue
    cases hvalue
  | options _ hanalysis _ =>
    rw [h] at hanalysis
    cases hanalysis

theorem ofMapping_breaksOff {root : Location} {entries : List (Yaml × Yaml)} :
    BreaksOff (ofDocument root (.map entries)) ↔ Unwritable (.map entries) := by
  generalize hdocument : Yaml.map entries = document
  have hparts : BreaksOff (ofDocument root document) ↔
      holdsLong (document.get? "extensions") = true ∨
      (∃ texts, textList (document.get? "extensions") = .ok texts ∧
        (holdsLong (document.get? "exclude_paths") = true ∨
        ∃ texts, textList (document.get? "exclude_paths") = .ok texts ∧
          (BreaksOff (formatOf document) ∨
          ∃ format, formatOf document = .ok format ∧ BreaksOff (optionsOf document)))) := by
    rw [← hdocument]
    simp only [ofDocument, BreaksOff.bind_iff, textList_breaksOff, BreaksOff.not_pure, and_false,
      exists_false, or_false]
  rw [hparts, formatOf_breaksOff, optionsOf_breaksOff]
  constructor
  · intro h
    obtain h | ⟨_, -, h | ⟨_, -, ⟨value, hvalue, h⟩ | ⟨format, hformat, analysis, hanalysis, h⟩⟩⟩ := h
    · exact .extensions h
    · exact .excludePaths h
    · exact .format hvalue h
    · exact .options hformat hanalysis h
  · intro h
    -- a value counts only if those that are read before it can be written out; else they break off first
    by_cases hextensions : holdsLong (document.get? "extensions") = true
    · exact .inl hextensions
    by_cases hexclude : holdsLong (document.get? "exclude_paths") = true
    · obtain ⟨texts, htexts⟩ := textList_eq_ok hextensions
      exact .inr ⟨texts, htexts, .inl hexclude⟩
    obtain ⟨texts, htexts⟩ := textList_eq_ok hextensions
    obtain ⟨patterns, hpatterns⟩ := textList_eq_ok hexclude
    refine .inr ⟨texts, htexts, .inr ⟨patterns, hpatterns, ?_⟩⟩
    cases h with
    | extensions h => exact absurd h hextensions
    | excludePaths h => exact absurd h hexclude
    | format hvalue h => exact .inl ⟨_, hvalue, h⟩
    | options hformat hanalysis h => exact .inr ⟨_, hformat, _, hanalysis, h⟩

theorem ofDocument_breaksOff {root : Location} {document : Yaml} :
    BreaksOff (ofDocument root document) ↔ Unwritable document := by
  cases document with
  | map entries => exact ofMapping_breaksOff
  | null => exact iff_of_false (BreaksOff.not_ok _) (not_unwritable fun _ => rfl)
  | _ => exact iff_of_false (BreaksOff.not_invalid _) (not_unwritable fun _ => rfl)

/-! ## Files -/

/-- A text of settings that can neither be used nor be refused. -/
inductive BrokenText (host : Host) (text : Text) : Prop
  | reader (hblank : Text.isBlank text = false) (h : host.readYaml text = .error .broken)
  | number {document : Yaml} (hblank : Text.isBlank text = false)
      (hdocument : host.readYaml text = .ok document) (h : Unwritable document)

/-- A file of settings that can neither be used nor be refused. -/
inductive BrokenFile (host : Host) (files : Files) (file : Location) : Prop
  | overlong (h : files.overlong file.path = true)
  | undecodable (h : files.Undecodable file)
  | text {text : Text} (hread : files.readText file = .ok text) (h : BrokenText host text)

/-- A path whose settings can neither be used nor be refused. -/
inductive Broken (host : Host) (files : Files) (path : Path) : Prop
  | homeless (h : host.Homeless path)
  | overlong {expanded : Path} (hexpand : host.expand path = .ok expanded)
      (hnull : expanded.hasNull = false) (h : files.overlong expanded = true)
  | nullCharacter {expanded : Path} (hexpand : host.expand path = .ok expanded)
      (h : (filePath expanded false).hasNull = true)
  | file {file : Location} (hfile : fileFor host files path = .ok file) (h : BrokenFile host files file)

variable {host : Host} {files : Files} {file : Location} {path : Path}

theorem ofText_breaksOff {text : Text} :
    BreaksOff (ofText host file text) ↔ BrokenText host text := by
  unfold ofText
  cases hblank : Text.isBlank text with
  | true =>
    refine iff_of_false (BreaksOff.not_ok _) fun h => ?_
    cases h with
    | reader hinked _ => exact Bool.false_ne_true (hinked.symm.trans hblank)
    | number hinked _ _ => exact Bool.false_ne_true (hinked.symm.trans hblank)
  | false =>
    simp only [Bool.false_eq_true, if_false]
    cases hread : host.readYaml text with
    | error failure =>
      cases failure with
      | broken => exact iff_of_true (.broken _) (.reader hblank hread)
      | malformed reason =>
        refine iff_of_false (BreaksOff.not_invalid _) fun h => ?_
        cases h with
        | reader _ h => cases hread.symm.trans h
        | number _ h _ => cases hread.symm.trans h
    | ok document =>
      refine ofDocument_breaksOff.trans ⟨.number hblank hread, fun h => ?_⟩
      cases h with
      | reader _ h => cases hread.symm.trans h
      | number _ hdocument h => exact Except.ok.inj (hread.symm.trans hdocument) ▸ h

section Fits

variable (hfits : files.overlong file.path = false)
include hfits

theorem brokenFile_iff_of_fits : BrokenFile host files file ↔
    files.readText file = .error .undecodable ∨
      ∃ text, files.readText file = .ok text ∧ BrokenText host text := by
  rw [Files.readText_eq_undecodable hfits]
  constructor
  · intro h
    cases h with
    | overlong h => exact absurd h (by simp [hfits])
    | undecodable h => exact .inl h
    | text hread h => exact .inr ⟨_, hread, h⟩
  · intro h
    obtain h | ⟨text, hread, h⟩ := h
    · exact .undecodable h
    · exact .text hread h

theorem ofFile_breaksOff_of_fits : BreaksOff (ofFile host files file) ↔
    files.readText file = .error .undecodable ∨
      ∃ text, files.readText file = .ok text ∧ BrokenText host text := by
  unfold ofFile
  simp only [BreaksOff.bind_iff, BreaksOff.mapError_iff, BreaksOff.mapError_eq_ok,
    Files.finds_of_fits hfits, reduceCtorEq, exists_false, false_or, Except.ok.injEq, exists_eq_left']
  cases hcontains : files.contains file with
  | false =>
    refine iff_of_false (BreaksOff.not_ok _) ?_
    simp [Files.readText_of_missing hfits hcontains]
  | true =>
    simp only [if_true]
    cases files.readText file with
    | error error =>
      cases error with
      | undecodable => exact iff_of_true (.broken _) (.inl rfl)
      | file error => exact iff_of_false (BreaksOff.not_invalid _) (by simp)
    | ok text => simpa using ofText_breaksOff

end Fits

theorem ofFile_breaksOff : BreaksOff (ofFile host files file) ↔ BrokenFile host files file := by
  cases hfits : files.overlong file.path with
  | true =>
    have hasked : BreaksOff (ofFile host files file) := by
      rw [ofFile, BreaksOff.bind_iff, BreaksOff.mapError_iff]
      exact .inl ⟨_, if_pos hfits⟩
    exact iff_of_true hasked (.overlong hfits)
  | false => rw [ofFile_breaksOff_of_fits hfits, brokenFile_iff_of_fits hfits]

theorem hasNull_child (path : Path) : (path.child fileName).hasNull = path.hasNull := by
  have hname : (fileName : Text).contains '\x00' = false := rfl
  rw [Path.hasNull, Path.child, List.any_append, List.any_cons, hname, List.any_nil, Bool.or_false,
    Bool.or_false, Path.hasNull]

/-- The path of a settings file has a null character only if the path that it is for has one. -/
theorem hasNull_of_filePath {isDirectory : Bool} (h : (filePath path isDirectory).hasNull = true) :
    path.hasNull = true := by
  unfold filePath at h
  split at h
  · rwa [hasNull_child] at h
  · split at h
    · exact h
    · rw [hasNull_child, Path.hasNull, List.any_eq_true] at h
      obtain ⟨segment, hsegment, hnull⟩ := h
      exact List.any_eq_true.mpr ⟨segment, List.dropLast_subset _ hsegment, hnull⟩

theorem leadsToDirectory_eq_error : (∃ error, files.leadsToDirectory path = .error error) ↔
    path.hasNull = false ∧ files.overlong path = true := by
  unfold Files.leadsToDirectory
  cases path.hasNull with
  | true => simp
  | false =>
    cases files.overlong path with
    | true => simp
    | false => cases files.reach path <;> simp

theorem leadsToDirectory_of_null (h : path.hasNull = true) :
    files.leadsToDirectory path = .ok false :=
  if_pos h

theorem checked_eq_error : (∃ breakdown, path.checked = .error breakdown) ↔ path.hasNull = true := by
  cases hnull : path.hasNull with
  | true => exact iff_of_true ⟨_, Path.checked_of_null hnull⟩ rfl
  | false =>
    rw [Path.checked_of_clean hnull]
    exact iff_of_false (by simp) (by simp)

theorem fileFor_breaksOff : BreaksOff (fileFor host files path) ↔ host.Homeless path ∨
    ∃ expanded, host.expand path = .ok expanded ∧
      (expanded.hasNull = false ∧ files.overlong expanded = true ∨
        (filePath expanded false).hasNull = true) := by
  unfold fileFor
  simp only [BreaksOff.bind_iff, BreaksOff.mapError_broken, Host.expand_eq_error,
    BreaksOff.mapError_iff, leadsToDirectory_eq_error, checked_eq_error, BreaksOff.not_pure, and_false,
    exists_false, or_false, BreaksOff.mapError_eq_ok]
  refine or_congr_right (exists_congr fun expanded => and_congr_right fun _ => or_congr_right ?_)
  constructor
  · intro h
    obtain ⟨isDirectory, hasked, hnull⟩ := h
    -- a path with a null character is no directory's, so it counts as the path of a file
    rw [leadsToDirectory_of_null (hasNull_of_filePath hnull)] at hasked
    rwa [Except.ok.inj hasked]
  · intro hnull
    exact ⟨false, leadsToDirectory_of_null (hasNull_of_filePath hnull), hnull⟩

/-- Loading settings breaks off exactly for the listed reasons. -/
theorem load_breaksOff : BreaksOff (load host files path) ↔ Broken host files path := by
  rw [load, BreaksOff.bind_iff, fileFor_breaksOff]
  simp only [ofFile_breaksOff]
  constructor
  · intro h
    obtain (h | ⟨expanded, hexpand, ⟨hnull, h⟩ | h⟩) | ⟨file, hfile, h⟩ := h
    · exact .homeless h
    · exact .overlong hexpand hnull h
    · exact .nullCharacter hexpand h
    · exact .file hfile h
  · intro h
    cases h with
    | homeless h => exact .inl (.inl h)
    | overlong hexpand hnull h => exact .inl (.inr ⟨_, hexpand, .inl ⟨hnull, h⟩⟩)
    | nullCharacter hexpand h => exact .inl (.inr ⟨_, hexpand, .inr h⟩)
    | file hfile h => exact .inr ⟨_, hfile, h⟩

end Settings

end ComponentAudit
