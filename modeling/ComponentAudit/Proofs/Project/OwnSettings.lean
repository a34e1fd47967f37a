import ComponentAudit.Proofs.Project.Listing
import ComponentAudit.Proofs.Project.SameBut

/-! # Settings that a scanned directory holds itself

A scan with given settings still takes the exclude patterns from the settings file in the scanned
directory. Another content of that file changes nothing about settings that are read from elsewhere, but
two scans list the same files only if the patterns in both contents leave out the same component files
(`Scan.listed_ownSettings_iff`). -/

namespace ComponentAudit

/-! ## A walk past another content -/

namespace Tree

theorem segmented_append {entries more : List (Text × Tree)} :
    Segmented (entries ++ more) ↔ Segmented entries ∧ Segmented more := by
  induction entries with
  | nil =>
    rw [List.nil_append, Segmented, true_and]
  | cons entry rest ih =>
    obtain ⟨name, content | entries⟩ := entry
    · rw [List.cons_append, Segmented, Segmented, ih, and_assoc]
    · rw [List.cons_append, Segmented, Segmented, ih, and_assoc, and_assoc]

theorem segmented_putEntry {name : Text} (hname : IsSegment name) (content : List UInt8)
    {entries : List (Text × Tree)} (h : Segmented entries) :
    Segmented (putEntry name (.file content) entries) := by
  obtain ⟨before, after, hput, hentries⟩ := exists_putEntry name entries
  have hparts : Segmented before ∧ Segmented after := by
    rcases hentries with rfl | ⟨old, rfl⟩
    · exact segmented_append.mp h
    · obtain ⟨hbefore, hrest⟩ := segmented_append.mp h
      have hrest : Segmented ([(name, old)] ++ after) := hrest
      exact ⟨hbefore, (segmented_append.mp hrest).2⟩
  rw [hput, segmented_append, Segmented]
  exact ⟨hparts.1, hname, hparts.2⟩

theorem innerFiles_append (entries more : List (Text × Tree)) :
    innerFiles (entries ++ more) = innerFiles entries ++ innerFiles more := by
  induction entries with
  | nil =>
    rw [List.nil_append, innerFiles]
    rfl
  | cons entry rest ih =>
    obtain ⟨name, content | entries⟩ := entry
    · rw [List.cons_append, innerFiles, innerFiles, ih]
    · rw [List.cons_append, innerFiles, innerFiles, ih, List.append_assoc]

/-- A walk does not look into files. -/
theorem walkedPaths_putEntry (name : Text) (entries : List (Text × Tree)) (first second : List UInt8) :
    walkedPaths (.directory (putEntry name (.file first) entries)) =
      walkedPaths (.directory (putEntry name (.file second) entries)) := by
  obtain ⟨before, after, hput, -⟩ := exists_putEntry name entries
  have hinner : ∀ content, innerFiles (before ++ (name, .file content) :: after) =
      innerFiles before ++ innerFiles after := by
    intro content
    rw [innerFiles_append, innerFiles]
  have hown : ∀ content, ownFiles (before ++ (name, .file content) :: after) =
      ownFiles before ++ [name] :: ownFiles after := fun content => List.filterMap_append
  rw [walkedPaths, walkedPaths, Tree.entries, Tree.entries, hput, hput, hinner, hinner, hown, hown]

end Tree

/-! ## Another content of the settings -/

namespace Files

/-- The file system with another content of the settings file in a directory. -/
def withSettings (files : Files) (root : Location) (content : List UInt8) : Files :=
  files.put (root.child Settings.fileName) (.file content)

section WithSettings

variable (files : Files) (root : Location) (first second : List UInt8)

theorem node?_withSettings_self (content : List UInt8) :
    (files.withSettings root content).node? (root.child Settings.fileName) = some (.file content) :=
  node?_put files.tree _ _

theorem sameBut_withSettings : SameBut (root.child Settings.fileName)
    (files.withSettings root first) (files.withSettings root second) where
  workingDirectory := rfl
  elsewhere location hlocation :=
    Tree.content?_put (fun heq => hlocation (congrArg Location.mk heq)) files.tree first second
  atPlace := by
    rw [node?_withSettings_self, node?_withSettings_self]
    rfl

variable {files root} {entries : List (Text × Tree)}

/-- Settings are read unless their path is too long or they are no text. -/
theorem isOk_readText_withSettings {content : List UInt8}
    (hfits : ¬ (files.withSettings root content).overlong (root.child Settings.fileName).path = true)
    (h : ¬ (files.withSettings root content).Undecodable (root.child Settings.fileName)) :
    ((files.withSettings root content).readText (root.child Settings.fileName)).isOk = true := by
  have hnode := node?_withSettings_self files root content
  have hreadable : ¬ (files.withSettings root content).Unreadable (root.child Settings.fileName) := by
    intro hunreadable
    obtain ⟨entries, hentries⟩ := hunreadable.resolve_left h
    cases hnode.symm.trans hentries
  obtain ⟨text, htext⟩ := readText_of_readable (by simpa using hfits) (contains_of_node? hnode) hreadable
  rw [htext]
  rfl

theorem node?_withSettings (hnode : files.node? root = some (.directory entries))
    (content : List UInt8) : (files.withSettings root content).node? root =
      some (.directory (Tree.putEntry Settings.fileName (.file content) entries)) :=
  Tree.node?_put_below hnode [Settings.fileName] (.file content)

end WithSettings

end Files

/-! ## Two contents -/

namespace Discovery

variable {files : Files} {root : Location} {entries : List (Text × Tree)}

/-- The component files do not depend on what the settings file in their directory holds. -/
theorem candidates_withSettings (hnode : files.node? root = some (.directory entries))
    (first second : List UInt8) (selection : Selection) :
    candidates (files.withSettings root first) root selection =
      candidates (files.withSettings root second) root selection := by
  have hreached : ∀ path, isReached (files.withSettings root first) root path =
      isReached (files.withSettings root second) root path := by
    intro path
    rw [isReached, isReached, (Files.sameBut_withSettings files root first second).overlong_eq]
  simp only [candidates, Files.node?_withSettings hnode, Option.elim_some, hreached,
    Tree.walkedPaths_putEntry _ _ first second]

/-- A path below a directory is known by the text of its location. -/
theorem below_text_injective (hdirect : root.Direct) {path other : Text}
    (h : (root.below (Text.splitOn '/' path)).text = (root.below (Text.splitOn '/' other)).text) :
    path = other := by
  have hsplit : ∀ path, Text.splitOn '/' (Text.join "/" (root.segments ++ Text.splitOn '/' path)) =
      root.segments ++ Text.splitOn '/' path := by
    intro path
    refine Text.splitOn_join ?_ fun s hs => ?_
    · exact List.append_ne_nil_of_right_ne_nil _ (Text.splitOn_ne_nil '/' path)
    · rcases List.mem_append.mp hs with hs | hs
      · exact (hdirect s hs).1.1.2
      · exact Text.separator_not_mem_splitOn hs
  have hjoin := congrArg (Text.splitOn '/') (List.cons.inj h).2
  rw [Location.below, Location.below, hsplit, hsplit, List.append_cancel_left_eq] at hjoin
  rw [← Text.join_splitOn '/' path, hjoin, Text.join_splitOn]

end Discovery

namespace Scan

open Discovery

variable {host : Host} {files other : Files} {found : List Location}

theorem sorted_congr (h : ∀ file ∈ found, (files.readText file).isOk = (other.readText file).isOk) :
    sorted files found = sorted other found := by
  have hnot : ∀ file ∈ found, (!(files.readText file).isOk) = !(other.readText file).isOk :=
    fun file hfile => congrArg _ (h file hfile)
  rw [sorted, sorted, List.filter_congr h, List.filter_congr hnot]

theorem mem_sorted {text : Text} :
    text ∈ (sorted files found).1 ++ (sorted files found).2 ↔ text ∈ found.map Location.text := by
  rw [sorted, ← List.map_append]
  exact ((List.filter_append_perm _ found).map _).mem_iff

/-- Two searches with the same component files find the same ones exactly if they leave out the same
ones. -/
theorem sorted_kept_eq_iff {root : Location} (hroot : root.Direct) {selection : Selection}
    (hread : ∀ file, (files.readText file).isOk = (other.readText file).isOk)
    (hcandidates : candidates files root selection = candidates other root selection) :
    let place := fun path => root.below (Text.splitOn '/' path)
    sorted files ((kept host files root selection).map place) =
        sorted other ((kept host other root selection).map place) ↔
      ∀ file ∈ candidates files root selection,
        leavesOut host files root selection file = leavesOut host other root selection file := by
  intro place
  rw [sorted_congr fun file _ => hread file]
  have hinjective : Function.Injective (Location.text ∘ place) :=
    fun _ _ htext => below_text_injective hroot htext
  have hmem : ∀ {paths : List Text} {file : Text}, (place file).text ∈
      (sorted other (paths.map place)).1 ++ (sorted other (paths.map place)).2 ↔ file ∈ paths := by
    intro paths file
    rw [mem_sorted, List.map_map]
    exact List.mem_map_of_injective hinjective
  constructor
  · intro hsorted file hfile
    have hkept : file ∈ kept host files root selection ↔ file ∈ kept host other root selection := by
      rw [← hmem, hsorted, hmem]
    rw [kept, kept, List.mem_filter, List.mem_filter, ← hcandidates, and_congr_right_iff] at hkept
    simpa using hkept hfile
  · intro hverdicts
    have hkept : kept host files root selection = kept host other root selection := by
      rw [kept, kept, ← hcandidates]
      exact List.filter_congr fun file hfile => congrArg _ (hverdicts file hfile)
    rw [hkept]

/-- The settings in the scanned directory have no say in settings that are read from another file. Yet
under two contents of them a scan with given settings lists the same exactly if it fails under both, or
under none, and then the ignore file, the patterns of the directory's own settings and the given
patterns, one behind the other, leave out the same component files. -/
theorem listed_ownSettings_iff {path : Text} {root : Location} {entries : List (Text × Tree)}
    (hdirect : files.workingDirectory.Direct)
    (hplace : host.locate files (Path.ofText path) = .ok root)
    (hnode : files.node? root = some (.directory entries)) (hnames : Tree.Segmented entries)
    (first second : List UInt8) :
    let one := files.withSettings root first
    let two := files.withSettings root second
    (∀ explicit, Settings.fileFor host one explicit ≠ .ok (root.child Settings.fileName) →
      Settings.load host one explicit = Settings.load host two explicit) ∧
    ∀ given : Settings,
      listed (run host one (some given) path) = listed (run host two (some given) path) ↔
        (Blocked host one root ↔ Blocked host two root) ∧
          (¬ Blocked host one root → ∀ file ∈ candidates one root given.selection,
            leavesOut host one root given.selection file =
              leavesOut host two root given.selection file) := by
  intro one two
  have hsame : Files.SameBut (root.child Settings.fileName) one two :=
    Files.sameBut_withSettings files root first second
  refine ⟨fun explicit hexplicit => hsame.load_eq host hexplicit, fun given => ?_⟩
  have hroot : root.Direct := Host.direct_locate hdirect hplace
  have hsegmented : ∀ content,
      Tree.Segmented (Tree.putEntry Settings.fileName (.file content) entries) :=
    fun content => Tree.segmented_putEntry (by decide) content hnames
  have hlisted : ∀ content, _ := fun content =>
    @listed_run host (files.withSettings root content) path root _ hdirect hplace
      (Files.node?_withSettings hnode content) (hsegmented content) given
  obtain ⟨hone, hone'⟩ := hlisted first
  obtain ⟨htwo, htwo'⟩ := hlisted second
  by_cases hblocked : Blocked host one root
  · rw [hone hblocked, iff_true_left hblocked, and_iff_left fun h => absurd hblocked h]
    by_cases hblocked' : Blocked host two root
    · exact iff_of_true (htwo hblocked').symm hblocked'
    · rw [htwo' hblocked']
      exact iff_of_false (Option.some_ne_none _).symm hblocked'
  · rw [hone' hblocked, iff_false_left hblocked]
    by_cases hblocked' : Blocked host two root
    · rw [htwo hblocked']
      exact iff_of_false (Option.some_ne_none _) fun h => h.1 hblocked'
    · rw [htwo' hblocked', Option.some_inj, and_iff_right hblocked', imp_iff_right hblocked]
      refine sorted_kept_eq_iff hroot (fun file => ?_) (candidates_withSettings hnode first second _)
      by_cases hfile : file = root.child Settings.fileName
      · have hread : ∀ {content}, ¬ Blocked host (files.withSettings root content) root →
            ((files.withSettings root content).readText (root.child Settings.fileName)).isOk = true :=
          fun h => Files.isOk_readText_withSettings (fun hlong => h (.settings (.overlong hlong)))
            fun hbytes => h (.settings (.undecodable hbytes))
        rw [hfile, hread hblocked, hread hblocked']
      · rw [hsame.readText_eq hfile]

/-! ## Settings beside the scanned directory -/

/-- A component, and beside its directory one that holds settings. All files are empty. -/
def besideSettings : Files :=
  ⟨.directory [("app", .directory [("App.svelte", .file [])]),
    ("conf", .directory [(Settings.fileName, .file [])])], ⟨[]⟩⟩

/-- The settings beside the component. -/
def emptySettings : Settings := { root := ⟨["conf"]⟩ }

/-- The component with settings in its own directory. -/
def underSettings (text : Text) : Files := besideSettings.withSettings ⟨["app"]⟩ (Utf8.encode text)

theorem node?_underSettings (text : Text) : (underSettings text).node? ⟨["app"]⟩ =
    some (.directory [(Settings.fileName, .file (Utf8.encode text)), ("App.svelte", .file [])]) := rfl

theorem candidates_underSettings (text : Text) :
    candidates (underSettings text) ⟨["app"]⟩ emptySettings.selection = [("App.svelte" : Text)] := by
  rw [candidates, node?_underSettings, Option.elim_some, Tree.walkedPaths]
  simp only [Tree.entries, Tree.innerFiles]
  rfl

theorem not_blocked_underSettings {text : Text}
    (h : (Settings.ofFile Host.plain (underSettings text) ⟨["app", Settings.fileName]⟩).isOk = true) :
    ¬ Blocked Host.plain (underSettings text) ⟨["app"]⟩ := by
  intro hblocked
  cases hblocked with
  | overlong hlong => cases hlong
  | ignoreFile hfile => cases hfile.contains
  | settings hsettings =>
    obtain ⟨breakdown, hbroken⟩ := Settings.ofFile_breaksOff.mpr hsettings
    have hbroken : Settings.ofFile Host.plain (underSettings text) ⟨["app", Settings.fileName]⟩ =
      .error (.broken breakdown) := hbroken
    rw [hbroken] at h
    cases h

theorem segmented_besideSettings : Tree.Segmented [("App.svelte", .file [])] := by
  simp only [Tree.Segmented]
  decide

/-- What a scan lists turns on the one component there is. -/
theorem listed_underSettings {text : Text}
    (h : (Settings.ofFile Host.plain (underSettings text) ⟨["app", Settings.fileName]⟩).isOk = true) :
    listed (run Host.plain (underSettings text) (some emptySettings) "/app") =
      some (if leavesOut Host.plain (underSettings text) ⟨["app"]⟩ emptySettings.selection "App.svelte"
        then ([], []) else ([("/app/App.svelte" : Text)], [])) := by
  have hnames : Tree.Segmented
      [(Settings.fileName, .file (Utf8.encode text)), ("App.svelte", .file [])] := by
    simp only [Tree.Segmented]
    decide
  have hdirect : besideSettings.workingDirectory.Direct := by decide
  have hlisted := (@listed_run Host.plain (underSettings text) "/app" ⟨["app"]⟩ _ hdirect rfl
    (node?_underSettings text) hnames emptySettings).2 (not_blocked_underSettings h)
  rw [hlisted, kept, candidates_underSettings, List.filter_singleton]
  cases leavesOut Host.plain (underSettings text) ⟨["app"]⟩ emptySettings.selection "App.svelte" <;> rfl

/-- With settings that leave out nothing that is there, and without settings. -/
theorem listed_ownSettings_iff_besideSettings :
    listed (run Host.plain (underSettings "exclude_paths: Old.svelte") (some emptySettings) "/app") =
      listed (run Host.plain (underSettings []) (some emptySettings) "/app") := by
  have hboth := (@listed_ownSettings_iff Host.plain besideSettings "/app" ⟨["app"]⟩ _ (by decide) rfl rfl
    segmented_besideSettings (Utf8.encode "exclude_paths: Old.svelte") (Utf8.encode [])).2 emptySettings
  refine hboth.mpr ⟨iff_of_false (not_blocked_underSettings (by decide +kernel))
    (not_blocked_underSettings (by decide +kernel)), fun _ => ?_⟩
  change ∀ file ∈ candidates (underSettings "exclude_paths: Old.svelte") ⟨["app"]⟩
      emptySettings.selection,
    leavesOut Host.plain (underSettings "exclude_paths: Old.svelte") ⟨["app"]⟩ emptySettings.selection
        file =
      leavesOut Host.plain (underSettings []) ⟨["app"]⟩ emptySettings.selection file
  rw [candidates_underSettings, List.forall_mem_singleton]
  decide +kernel

/-- Settings that leave out the component, and no settings: what is given is the same, and the scans
list different files. -/
theorem listed_ownSettings_differ :
    Settings.load Host.plain (underSettings "exclude_paths: App.svelte") ⟨true, ["conf"]⟩ =
        .ok emptySettings ∧
      Settings.load Host.plain (underSettings []) ⟨true, ["conf"]⟩ = .ok emptySettings ∧
      listed (run Host.plain (underSettings "exclude_paths: App.svelte") (some emptySettings) "/app") =
        some ([], []) ∧
      listed (run Host.plain (underSettings []) (some emptySettings) "/app") =
        some ([("/app/App.svelte" : Text)], []) := by
  refine ⟨rfl, rfl, ?_, ?_⟩
  · rw [listed_underSettings (by decide +kernel), if_pos (by decide +kernel)]
  · rw [listed_underSettings (by decide +kernel), if_neg (by decide +kernel)]

end Scan

end ComponentAudit
