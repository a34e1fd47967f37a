import ComponentAudit.Proofs.History.Comparison
import ComponentAudit.Proofs.Project.Discovery
import ComponentAudit.Proofs.Project.Search

/-! # What a scan lists

A scan with given settings lists the component files below its directory that three lists of rules let
through, one behind the other: the lines of the ignore file, the patterns of the settings that the
directory holds itself, and the patterns of the given settings. It analyses those that are texts and
skips the others, each in the order of the walk (`Scan.listed_run`). -/

namespace ComponentAudit

/-! ## The order of a walk -/

namespace Tree

/-- Entries whose names are segments, all the way down. -/
def Segmented : List (Text × Tree) → Prop
  | [] => True
  | (name, .file _) :: rest => IsSegment name ∧ Segmented rest
  | (name, .directory entries) :: rest => IsSegment name ∧ Segmented entries ∧ Segmented rest

/-- The files among some entries, each by its segments. -/
def ownFiles (entries : List (Text × Tree)) : List (List Text) :=
  entries.filterMap fun entry => if entry.2.isDirectory then none else some [entry.1]

/-- The files in the directories among some entries. In each directory its own files come first. -/
def innerFiles : List (Text × Tree) → List (List Text)
  | [] => []
  | (_, .file _) :: rest => innerFiles rest
  | (name, .directory entries) :: rest =>
    (ownFiles entries ++ innerFiles entries).map (name :: ·) ++ innerFiles rest

/-- The paths of all files of a tree, in the order of a walk. -/
def walkedPaths (tree : Tree) : List Text :=
  (ownFiles tree.entries ++ innerFiles tree.entries).map (Text.join "/")

theorem segments_of_mem_ownFiles : ∀ {entries : List (Text × Tree)}, Segmented entries →
    ∀ segments ∈ ownFiles entries, segments ≠ [] ∧ ∀ s ∈ segments, IsSegment s
  | [], _, _, hmem => (List.not_mem_nil hmem).elim
  | (name, .file _) :: rest, h, segments, hmem => by
    rw [Segmented] at h
    rcases List.mem_cons.mp hmem with rfl | hmem
    · exact ⟨by simp, fun s hs => List.mem_singleton.mp hs ▸ h.1⟩
    · exact segments_of_mem_ownFiles h.2 segments hmem
  | (name, .directory _) :: rest, h, segments, hmem => by
    rw [Segmented] at h
    exact segments_of_mem_ownFiles h.2.2 segments hmem

theorem segments_of_mem_innerFiles : ∀ {entries : List (Text × Tree)}, Segmented entries →
    ∀ segments ∈ innerFiles entries, segments ≠ [] ∧ ∀ s ∈ segments, IsSegment s
  | [], _, segments, hmem => by
    rw [innerFiles] at hmem
    cases hmem
  | (name, .file _) :: rest, h, segments, hmem => by
    rw [Segmented] at h
    rw [innerFiles] at hmem
    exact segments_of_mem_innerFiles h.2 segments hmem
  | (name, .directory entries) :: rest, h, segments, hmem => by
    rw [Segmented] at h
    rw [innerFiles] at hmem
    obtain ⟨hname, hentries, hrest⟩ := h
    rcases List.mem_append.mp hmem with hmem | hmem
    · obtain ⟨inner, hinner, rfl⟩ := List.mem_map.mp hmem
      have hsegments : ∀ s ∈ inner, IsSegment s := by
        rcases List.mem_append.mp hinner with hinner | hinner
        · exact (segments_of_mem_ownFiles hentries inner hinner).2
        · exact (segments_of_mem_innerFiles hentries inner hinner).2
      exact ⟨by simp, List.forall_mem_cons.mpr ⟨hname, hsegments⟩⟩
    · exact segments_of_mem_innerFiles hrest segments hmem

theorem segments_of_mem {entries : List (Text × Tree)} (h : Segmented entries) {segments : List Text}
    (hmem : segments ∈ ownFiles entries ++ innerFiles entries) :
    segments ≠ [] ∧ ∀ s ∈ segments, IsSegment s := by
  rcases List.mem_append.mp hmem with hmem | hmem
  · exact segments_of_mem_ownFiles h segments hmem
  · exact segments_of_mem_innerFiles h segments hmem

theorem keptFiles_eq (rules : List IgnoreRule) {directories : List Text}
    (hdirectories : ∀ d ∈ directories, IsSegment d) (entries : List (Text × Tree)) :
    keptFiles rules (Text.join "/" directories) entries =
      ((ownFiles entries).filter (passes rules directories)).map
        fun segments => Text.join "/" (directories ++ segments) := by
  induction entries with
  | nil => rfl
  | cons entry rest ih =>
    obtain ⟨name, content | entries⟩ := entry
    · have hpasses : passes rules directories [name] =
          !IgnoreRule.ignores rules (entryPath (Text.join "/" directories) name) false := by
        rw [entryPath_join hdirectories]
        rfl
      have hown : ownFiles ((name, .file content) :: rest) = [name] :: ownFiles rest := rfl
      rw [keptFiles_file, hown, List.filter_cons, hpasses, ih]
      cases IgnoreRule.ignores rules (entryPath (Text.join "/" directories) name) false with
      | true => rfl
      | false =>
        rw [Bool.not_false, if_pos rfl, List.map_cons, ← entryPath_join hdirectories]
        rfl
    · exact ih

theorem walkDirectories_eq (rules : List IgnoreRule) :
    ∀ (entries : List (Text × Tree)) (directories : List Text), Segmented entries →
      (∀ d ∈ directories, IsSegment d) →
      walkDirectories rules (Text.join "/" directories) entries =
        ((innerFiles entries).filter (passes rules directories)).map
          fun segments => Text.join "/" (directories ++ segments)
  | [], _, _, _ => by
    rw [walkDirectories, innerFiles]
    rfl
  | (_, .file _) :: rest, directories, h, hdirectories => by
    rw [Segmented] at h
    rw [walkDirectories, innerFiles]
    exact walkDirectories_eq rules rest directories h.2 hdirectories
  | (name, .directory entries) :: rest, directories, h, hdirectories => by
    rw [Segmented] at h
    obtain ⟨hname, hentries, hrest⟩ := h
    have hbelow := isSegment_concat hdirectories hname
    have hinside : ((ownFiles entries ++ innerFiles entries).map (name :: ·)).filter
          (passes rules directories) =
        ((ownFiles entries ++ innerFiles entries).filter fun segments =>
          isEntered rules (Text.join "/" directories) name &&
            passes rules (directories ++ [name]) segments).map (name :: ·) := by
      rw [List.filter_map]
      congr 1
      refine List.filter_congr fun segments hmem => ?_
      exact passes_cons name (segments_of_mem hentries hmem).1
    rw [walkDirectories, innerFiles, List.filter_append, hinside, List.map_append,
      walkDirectories_eq rules rest directories hrest hdirectories, entryPath_join hdirectories,
      keptFiles_eq rules hbelow, walkDirectories_eq rules entries (directories ++ [name]) hentries hbelow]
    refine congrArg (· ++ _) ?_
    cases isEntered rules (Text.join "/" directories) name with
    | true =>
      simp only [if_true, Bool.true_and, List.map_map, List.filter_append, List.map_append,
        Function.comp_def, List.append_assoc, List.singleton_append]
    | false => simp

/-- Rules take paths out of a walk and leave the others in their order. -/
theorem walk_eq_filter (rules : List IgnoreRule) {tree : Tree} (h : Segmented tree.entries) :
    tree.walk rules =
      tree.walkedPaths.filter fun path => !isExcludedPath path && !IgnoreRule.ignoresFile rules path := by
  have hkept : keptFiles rules [] tree.entries = _ :=
    @keptFiles_eq rules [] (fun _ hd => (List.not_mem_nil hd).elim) tree.entries
  have hinner : walkDirectories rules [] tree.entries = _ :=
    walkDirectories_eq rules tree.entries [] h fun _ hd => (List.not_mem_nil hd).elim
  rw [walk, hkept, hinner, walkedPaths, ← List.map_append, ← List.filter_append, List.filter_map]
  refine congrArg (List.map _) (List.filter_congr fun segments hmem => ?_)
  obtain ⟨hne, hsegments⟩ := segments_of_mem h hmem
  exact passes_root rules hne hsegments

end Tree

/-! ## Component files and their rules -/

namespace Discovery

/-- The component files below a directory that a walk gets to and no rule is asked about, in the order
of the walk. -/
def candidates (files : Files) (root : Location) (selection : Selection) : List Text :=
  ((files.node? root).elim [] Tree.walkedPaths).filter fun path =>
    !isExcludedPath path && selection.hasExtension ((Text.splitOn '/' path).getLast?.getD []) &&
      isReached files root path

/-- Whether a file below a directory is left out when it is searched with a given selection. -/
def leavesOut (host : Host) (files : Files) (root : Location) (selection : Selection) (path : Text) :
    Bool :=
  IgnoreRule.ignoresFile (IgnoreRule.ofLines
    (ignoreLines files root ++ ownPatterns host files root ++ selection.excludePaths)) path

/-- The component files below a directory that are not left out. -/
def kept (host : Host) (files : Files) (root : Location) (selection : Selection) : List Text :=
  (candidates files root selection).filter (!leavesOut host files root selection ·)

theorem find_exact {host : Host} {files : Files} {root : Location} {entries : List (Text × Tree)}
    (hdirect : root.Direct) (hnode : files.node? root = some (.directory entries))
    (hnames : Tree.Segmented entries) (h : ¬ Blocked host files root) (selection : Selection) :
    (find host files selection root.text).Succeeds
      (· = (kept host files root selection).map fun path => root.below (Text.splitOn '/' path)) := by
  refine (Run.existing_text_succeeds hdirect (fits_of_not_blocked h)
    (Files.contains_of_node? hnode)).step ?_
  rw [hnode]
  refine (rules_exact hdirect hnode h selection).step ?_
  refine (Run.Succeeds.logAll _).step (.pure (congrArg (List.map _) ?_))
  have hwalk : ∀ rules, (Tree.directory entries).walk rules = _ := fun rules =>
    Tree.walk_eq_filter rules hnames
  rw [select, hwalk, kept, candidates, hnode, Option.elim_some, List.filter_filter,
    List.filter_filter, List.filter_filter]
  refine List.filter_congr fun path _ => ?_
  rw [leavesOut]
  ac_rfl

end Discovery

/-! ## Analysed and skipped files -/

namespace Scan

/-- The files that a scan lists: those that it analysed, and those that it skipped. -/
def listing (scan : Scan) : List Text × List Text := (scan.analyses.map (·.filePath), scan.skipped)

/-- What a run of a scan lists; nothing if it fails. -/
def listed (run : Run Scan) : Option (List Text × List Text) :=
  match run.result.1 with
  | .ok scan => some scan.listing
  | .error _ => none

/-- Locations with a text, and those without, each in its order. -/
def sorted (files : Files) (found : List Location) : List Text × List Text :=
  ((found.filter fun file => (files.readText file).isOk).map Location.text,
    (found.filter fun file => !(files.readText file).isOk).map Location.text)

theorem listed_of_succeeds {run : Run Scan} {lists : List Text × List Text}
    (h : run.Succeeds (·.listing = lists)) : listed run = some lists := by
  obtain ⟨scan, hresult, hlisting⟩ := h.result
  rw [listed, hresult, ← hlisting]

theorem listed_of_fails {run : Run Scan} {failure : Failure} (h : run.Fails failure) :
    listed run = none := by
  rw [listed, h.result]

theorem addFile_listing (files : Files) (options : Options) (scan : Scan) (file : Location) :
    (addFile files options scan file).Succeeds fun result => result.listing =
      (scan.listing.1 ++ (sorted files [file]).1, scan.listing.2 ++ (sorted files [file]).2) := by
  unfold addFile
  cases hread : files.readText file with
  | error error =>
    refine (Run.Succeeds.logAll _).step (.pure ?_)
    simp [sorted, listing, hread, Except.isOk, Except.toBool]
  | ok text =>
    refine (Run.Succeeds.logAll _).step ((Run.Succeeds.analyzeFile _ _ _).step (.pure ?_))
    simp [sorted, listing, hread, Except.isOk, Except.toBool, Analysis.filePath_analyze]

theorem addFiles_listing (files : Files) (options : Options) (found : List Location) (scan : Scan) :
    (found.foldlM (addFile files options) scan).Succeeds fun result => result.listing =
      (scan.listing.1 ++ (sorted files found).1, scan.listing.2 ++ (sorted files found).2) := by
  induction found generalizing scan with
  | nil =>
    refine .pure ?_
    simp [sorted]
  | cons file found ih =>
    rw [List.foldlM_cons]
    refine (addFile_listing files options scan file).bind fun next hnext => ?_
    have hrest := ih next
    rw [hnext] at hrest
    have hsorted : sorted files (file :: found) = ((sorted files [file]).1 ++ (sorted files found).1,
        (sorted files [file]).2 ++ (sorted files found).2) := by
      simp only [sorted, ← List.map_append, ← List.filter_append, List.singleton_append]
    rw [hsorted, ← List.append_assoc, ← List.append_assoc]
    exact hrest

/-- What a scan of a directory lists: nothing if the rules for it cannot be told, else exactly the
component files that are not left out. -/
theorem listed_run {host : Host} {files : Files} {path : Text} {root : Location}
    {entries : List (Text × Tree)} (hdirect : files.workingDirectory.Direct)
    (hplace : host.locate files (Path.ofText path) = .ok root)
    (hnode : files.node? root = some (.directory entries)) (hnames : Tree.Segmented entries)
    (given : Settings) :
    (Discovery.Blocked host files root → listed (run host files (some given) path) = none) ∧
      (¬ Discovery.Blocked host files root → listed (run host files (some given) path) =
        some (sorted files ((Discovery.kept host files root given.selection).map fun file =>
          root.below (Text.splitOn '/' file)))) := by
  constructor
  · intro hblocked
    obtain ⟨breakdown, hfails⟩ := run_breaks_blocked hplace hdirect hnode hblocked given
    exact listed_of_fails hfails
  · intro hblocked
    have hexisting : (Run.existing host files path).Succeeds (· = root) :=
      Run.existing_succeeds hplace (Discovery.fits_of_not_blocked hblocked)
        (Files.contains_of_node? hnode)
    have hfound := Discovery.find_exact (Host.direct_locate hdirect hplace) hnode hnames hblocked
      given.selection
    refine listed_of_succeeds (hexisting.step ((Run.Succeeds.pure_self given).step (hfound.step ?_)))
    exact (Run.Succeeds.logAll _).step (addFiles_listing files given.options _ { root })

end Scan

end ComponentAudit
