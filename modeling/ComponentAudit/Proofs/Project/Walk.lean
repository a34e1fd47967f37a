import ComponentAudit.Project.Tree
import ComponentAudit.Proofs.Text.Split

/-! # A walk judges whole paths

The walk of a tree leaves out a directory as soon as a rule or its name says so. Judging each file by
its whole path gives the same: the files that a walk keeps are, up to order, the files of the tree that
pass at every directory on the way (`keptFiles_walkDirectories_perm`). -/

namespace ComponentAudit

/-- Segments that a path can be made of. -/
def IsSegment (segment : Text) : Prop := segment ≠ [] ∧ '/' ∉ segment

instance (segment : Text) : Decidable (IsSegment segment) := inferInstanceAs (Decidable (_ ∧ _))

theorem join_ne_nil {segments : List Text} (hne : segments ≠ []) (h : ∀ s ∈ segments, IsSegment s) :
    Text.join "/" segments ≠ [] := by
  cases segments with
  | nil => exact absurd rfl hne
  | cons first more =>
    have hfirst := (h first List.mem_cons_self).1
    cases more with
    | nil =>
      rw [Text.join_singleton]
      exact hfirst
    | cons next more =>
      rw [Text.join_cons_cons, List.append_assoc]
      exact fun hnil => hfirst (List.append_eq_nil_iff.mp hnil).1

theorem splitOn_join_segments {segments : List Text} (hne : segments ≠ [])
    (h : ∀ s ∈ segments, IsSegment s) : Text.splitOn '/' (Text.join "/" segments) = segments :=
  Text.splitOn_join hne fun s hs => (h s hs).2

theorem isSegment_concat {directories : List Text} {name : Text} (h : ∀ d ∈ directories, IsSegment d)
    (hname : IsSegment name) : ∀ d ∈ directories ++ [name], IsSegment d := by
  intro d hd
  rcases List.mem_append.mp hd with hd | hd
  · exact h d hd
  · rw [List.mem_singleton.mp hd]
    exact hname

namespace Tree

/-- The files of a directory and below, each by its segments. -/
def fileSegments : List (Text × Tree) → List (List Text)
  | [] => []
  | (name, .file _) :: rest => [name] :: fileSegments rest
  | (name, .directory entries) :: rest => (fileSegments entries).map (name :: ·) ++ fileSegments rest

/-- The paths of all files of a tree. -/
def filePaths (tree : Tree) : List Text := (fileSegments tree.entries).map (Text.join "/")

/-- Entries as a file system has them: each name is a segment, and no two are the same. -/
def WellNamed : List (Text × Tree) → Prop
  | [] => True
  | (name, .file _) :: rest =>
    IsSegment name ∧ (∀ entry ∈ rest, entry.1 ≠ name) ∧ WellNamed rest
  | (name, .directory entries) :: rest =>
    IsSegment name ∧ (∀ entry ∈ rest, entry.1 ≠ name) ∧ WellNamed entries ∧ WellNamed rest

/-- Every file has a segment, and all its segments are names of entries. -/
theorem segments_of_mem_fileSegments : ∀ {entries : List (Text × Tree)}, WellNamed entries →
    ∀ segments ∈ fileSegments entries, segments ≠ [] ∧ ∀ s ∈ segments, IsSegment s
  | [], _, segments, hmem => by
    rw [fileSegments] at hmem
    cases hmem
  | (name, .file _) :: rest, h, segments, hmem => by
    rw [WellNamed] at h
    rw [fileSegments] at hmem
    obtain ⟨hname, -, hrest⟩ := h
    rcases List.mem_cons.mp hmem with rfl | hmem
    · refine ⟨by simp, fun s hs => ?_⟩
      rw [List.mem_singleton.mp hs]
      exact hname
    · exact segments_of_mem_fileSegments hrest segments hmem
  | (name, .directory entries) :: rest, h, segments, hmem => by
    rw [WellNamed] at h
    rw [fileSegments] at hmem
    obtain ⟨hname, -, hentries, hrest⟩ := h
    rcases List.mem_append.mp hmem with hmem | hmem
    · obtain ⟨inner, hinner, rfl⟩ := List.mem_map.mp hmem
      have hsegments := (segments_of_mem_fileSegments hentries inner hinner).2
      refine ⟨by simp, fun s hs => ?_⟩
      rcases List.mem_cons.mp hs with rfl | hs
      · exact hname
      · exact hsegments s hs
    · exact segments_of_mem_fileSegments hrest segments hmem

theorem head_of_mem_fileSegments : ∀ {entries : List (Text × Tree)} {segments : List Text},
    segments ∈ fileSegments entries → ∃ entry ∈ entries, segments.head? = some entry.1
  | [], _, hmem => by
    rw [fileSegments] at hmem
    cases hmem
  | (name, .file content) :: rest, segments, hmem => by
    rw [fileSegments] at hmem
    rcases List.mem_cons.mp hmem with rfl | hmem
    · exact ⟨(name, .file content), List.mem_cons_self, rfl⟩
    · obtain ⟨entry, hentry, hhead⟩ := head_of_mem_fileSegments hmem
      exact ⟨entry, List.mem_cons_of_mem _ hentry, hhead⟩
  | (name, .directory entries) :: rest, segments, hmem => by
    rw [fileSegments] at hmem
    rcases List.mem_append.mp hmem with hmem | hmem
    · obtain ⟨inner, -, rfl⟩ := List.mem_map.mp hmem
      exact ⟨(name, .directory entries), List.mem_cons_self, rfl⟩
    · obtain ⟨entry, hentry, hhead⟩ := head_of_mem_fileSegments hmem
      exact ⟨entry, List.mem_cons_of_mem _ hentry, hhead⟩

/-- No file is listed under a name that the other entries do not have. -/
theorem cons_not_mem_fileSegments {entries : List (Text × Tree)} {name : Text}
    (h : ∀ entry ∈ entries, entry.1 ≠ name) (more : List Text) : name :: more ∉ fileSegments entries := by
  intro hmem
  obtain ⟨entry, hentry, hhead⟩ := head_of_mem_fileSegments hmem
  exact h entry hentry (Option.some.inj hhead).symm

theorem nodup_fileSegments : ∀ {entries : List (Text × Tree)}, WellNamed entries →
    (fileSegments entries).Nodup
  | [], _ => by
    rw [fileSegments]
    exact List.nodup_nil
  | (name, .file _) :: rest, h => by
    rw [WellNamed] at h
    rw [fileSegments]
    obtain ⟨-, hfresh, hrest⟩ := h
    exact List.nodup_cons.mpr ⟨cons_not_mem_fileSegments hfresh [], nodup_fileSegments hrest⟩
  | (name, .directory entries) :: rest, h => by
    rw [WellNamed] at h
    rw [fileSegments]
    obtain ⟨-, hfresh, hentries, hrest⟩ := h
    refine List.nodup_append.mpr ⟨?_, nodup_fileSegments hrest, ?_⟩
    · refine List.pairwise_map.mpr ((nodup_fileSegments hentries).imp fun hne he => ?_)
      exact hne (List.cons.inj he).2
    · intro segments hin other hother he
      obtain ⟨inner, -, rfl⟩ := List.mem_map.mp hin
      exact cons_not_mem_fileSegments hfresh inner (he ▸ hother)

/-- Segments are known by their path. -/
theorem nodup_filePaths {tree : Tree} (h : WellNamed tree.entries) : tree.filePaths.Nodup := by
  refine List.pairwise_map.mpr ((nodup_fileSegments h).imp_of_mem fun {a b} ha hb hne he => hne ?_)
  have hsplit : ∀ segments ∈ fileSegments tree.entries,
      Text.splitOn '/' (Text.join "/" segments) = segments := by
    intro segments hmem
    obtain ⟨hne, hsegments⟩ := segments_of_mem_fileSegments h segments hmem
    exact splitOn_join_segments hne hsegments
  rw [← hsplit a ha, ← hsplit b hb, he]

/-! ## The walk -/

theorem entryPath_join {directories : List Text} (h : ∀ d ∈ directories, IsSegment d) (name : Text) :
    entryPath (Text.join "/" directories) name = Text.join "/" (directories ++ [name]) := by
  rw [entryPath]
  cases hd : directories with
  | nil => simp [Text.join]
  | cons first more =>
    rw [← hd]
    have hne : directories ≠ [] := by simp [hd]
    rw [if_neg (by simpa using join_ne_nil hne h), Text.join_concat "/" name hne]
    rfl

/-- Whether a walk that has come to a directory reaches and keeps a file below it. -/
def passes (rules : List IgnoreRule) (directories : List Text) : List Text → Bool
  | [] => false
  | [name] => !IgnoreRule.ignores rules (Text.join "/" (directories ++ [name])) false
  | name :: next :: rest =>
    isEntered rules (Text.join "/" directories) name &&
      passes rules (directories ++ [name]) (next :: rest)

theorem passes_cons {rules : List IgnoreRule} {directories segments : List Text} (name : Text)
    (hne : segments ≠ []) :
    passes rules directories (name :: segments) =
      (isEntered rules (Text.join "/" directories) name &&
        passes rules (directories ++ [name]) segments) := by
  obtain ⟨next, rest, rfl⟩ := List.exists_cons_of_ne_nil hne
  rfl

theorem keptFiles_file (rules : List IgnoreRule) (base name : Text) (content : List UInt8)
    (rest : List (Text × Tree)) :
    keptFiles rules base ((name, .file content) :: rest) =
      if IgnoreRule.ignores rules (entryPath base name) false then keptFiles rules base rest
      else entryPath base name :: keptFiles rules base rest := by
  rw [keptFiles, List.filterMap_cons]
  cases h : IgnoreRule.ignores rules (entryPath base name) false with
  | true => simp [isDirectory, h, keptFiles]
  | false => simp [isDirectory, h, keptFiles]

/-- What a walk keeps in and below a directory. -/
theorem keptFiles_walkDirectories_perm (rules : List IgnoreRule) :
    ∀ (entries : List (Text × Tree)) (directories : List Text), WellNamed entries →
      (∀ d ∈ directories, IsSegment d) →
      (keptFiles rules (Text.join "/" directories) entries ++
        walkDirectories rules (Text.join "/" directories) entries).Perm
      (((fileSegments entries).filter (passes rules directories)).map
        fun segments => Text.join "/" (directories ++ segments))
  | [], directories, _, _ => by
    rw [fileSegments, walkDirectories]
    exact List.Perm.refl _
  | (name, .file content) :: rest, directories, h, hdirectories => by
    rw [WellNamed] at h
    obtain ⟨-, -, hrest⟩ := h
    have ih := keptFiles_walkDirectories_perm rules rest directories hrest hdirectories
    have hpasses : passes rules directories [name] =
        !IgnoreRule.ignores rules (entryPath (Text.join "/" directories) name) false := by
      rw [entryPath_join hdirectories]
      rfl
    rw [fileSegments, List.filter_cons, walkDirectories, keptFiles_file, hpasses]
    cases hignored : IgnoreRule.ignores rules (entryPath (Text.join "/" directories) name) false with
    | true => exact ih
    | false =>
      rw [Bool.not_false, if_pos rfl, List.map_cons, ← entryPath_join hdirectories]
      exact ih.cons _
  | (name, .directory entries) :: rest, directories, h, hdirectories => by
    rw [WellNamed] at h
    obtain ⟨hname, -, hentries, hrest⟩ := h
    have ih := keptFiles_walkDirectories_perm rules rest directories hrest hdirectories
    have ihBelow := keptFiles_walkDirectories_perm rules entries (directories ++ [name]) hentries
      (isSegment_concat hdirectories hname)
    have hinside : ((fileSegments entries).map (name :: ·)).filter (passes rules directories) =
        ((fileSegments entries).filter fun segments =>
          isEntered rules (Text.join "/" directories) name &&
            passes rules (directories ++ [name]) segments).map (name :: ·) := by
      rw [List.filter_map]
      congr 1
      refine List.filter_congr fun segments hmem => ?_
      exact passes_cons name (segments_of_mem_fileSegments hentries segments hmem).1
    have hkept : keptFiles rules (Text.join "/" directories) ((name, .directory entries) :: rest) =
        keptFiles rules (Text.join "/" directories) rest := rfl
    rw [fileSegments, List.filter_append, hinside, List.map_append, hkept, walkDirectories,
      entryPath_join hdirectories]
    -- the walk lists the files of this directory before what is inside `name`
    refine (List.perm_append_comm_assoc _ _ _).trans (List.Perm.append ?_ ih)
    cases hentered : isEntered rules (Text.join "/" directories) name with
    | true =>
      simp only [if_true, Bool.true_and, List.map_map, Function.comp_def]
      simp only [List.append_assoc, List.singleton_append] at ihBelow
      exact ihBelow
    | false => simp

/-- What a walk keeps of a whole tree. -/
theorem walk_perm (rules : List IgnoreRule) {tree : Tree} (h : WellNamed tree.entries) :
    (tree.walk rules).Perm
      (((fileSegments tree.entries).filter (passes rules [])).map (Text.join "/")) :=
  keptFiles_walkDirectories_perm rules tree.entries [] h fun _ hd => (List.not_mem_nil hd).elim

end Tree

end ComponentAudit
