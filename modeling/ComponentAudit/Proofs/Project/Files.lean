import ComponentAudit.Project.Settings
import ComponentAudit.Proofs.Project.Walk

/-! # Where paths lead

A location that is made of names of entries only (`Location.Direct`) is found again from its text, and
a directory at such a location is reached from the root step by step. Whatever path is given, the
location that it names is such a location. What is written under a path is afterwards at the place where
the path leads. -/

namespace ComponentAudit

/-- A part of a split text is made of its characters, apart from the separator. -/
theorem Text.of_mem_splitOn {separator c : Char} {t part : Text} (h : part ∈ splitOn separator t)
    (hc : c ∈ part) : c ∈ t ∧ c ≠ separator := by
  induction t generalizing part with
  | nil =>
    rw [splitOn, List.mem_singleton] at h
    rw [h] at hc
    cases hc
  | cons d t ih =>
    have hrest : ∀ {part}, part ∈ splitOn separator t → c ∈ part → c ∈ d :: t ∧ c ≠ separator :=
      fun h hc => (ih h hc).imp_left (List.mem_cons_of_mem d)
    rw [splitOn] at h
    split at h
    · rcases List.mem_cons.mp h with rfl | h
      · cases hc
      · exact hrest h hc
    · rename_i hd
      obtain ⟨first, more, hparts⟩ := List.exists_cons_of_ne_nil (splitOn_ne_nil separator t)
      rw [hparts] at h hrest
      rcases List.mem_cons.mp h with rfl | h
      · rcases List.mem_cons.mp hc with rfl | hc
        · exact ⟨List.mem_cons_self, by simpa using hd⟩
        · exact hrest List.mem_cons_self hc
      · exact hrest (List.mem_cons_of_mem first h) hc

theorem Text.separator_not_mem_splitOn {separator : Char} {t part : Text}
    (h : part ∈ splitOn separator t) : separator ∉ part :=
  fun hmem => (of_mem_splitOn h hmem).2 rfl

/-! ## Locations -/

/-- A segment that is no step to another place and that the system takes. -/
def IsStep (segment : Text) : Prop := IsSegment segment ∧ segment ≠ ['.'] ∧ '\x00' ∉ segment

instance (segment : Text) : Decidable (IsStep segment) := inferInstanceAs (Decidable (_ ∧ _ ∧ _))

namespace Location

/-- A location as a file system has it: names of entries from the root on, and no steps up. -/
def Direct (location : Location) : Prop := ∀ segment ∈ location.segments, IsStep segment ∧ segment ≠ stepUp

instance (location : Location) : Decidable location.Direct :=
  inferInstanceAs (Decidable (∀ segment ∈ location.segments, IsStep segment ∧ segment ≠ stepUp))

variable {location : Location}

theorem Direct.follow (h : location.Direct) {segment : Text} (hsegment : IsStep segment) :
    (location.follow segment).Direct := by
  unfold Location.follow
  split
  · intro name hname
    exact h name (List.dropLast_subset _ hname)
  · rename_i hup
    intro name hname
    rcases List.mem_append.mp hname with hname | hname
    · exact h name hname
    · rw [List.mem_singleton.mp hname]
      exact ⟨hsegment, by simpa using hup⟩

/-- Names of entries lead straight down. -/
theorem foldl_follow {segments : List Text} (h : ∀ segment ∈ segments, segment ≠ stepUp)
    (location : Location) :
    segments.foldl follow location = ⟨location.segments ++ segments⟩ := by
  induction segments generalizing location with
  | nil => simp
  | cons segment segments ih =>
    obtain ⟨hsegment, hsegments⟩ := List.forall_mem_cons.mp h
    rw [List.foldl_cons, ih hsegments, follow, if_neg (by simpa using hsegment), child]
    simp

theorem Direct.resolve_path (h : location.Direct) (workingDirectory : Location) :
    location.path.resolve workingDirectory = location :=
  foldl_follow (fun s hs => (h s hs).2) ⟨[]⟩

/-- The text of a location is read as the path that leads straight to it. -/
theorem Direct.ofText_text (h : location.Direct) : Path.ofText location.text = location.path := by
  have hparts : (Path.ofText location.text).segments = location.segments := by
    simp only [Path.ofText, text, Text.splitOn, beq_self_eq_true, if_true]
    cases hsegments : location.segments with
    | nil => rfl
    | cons first more =>
      have hsplit : Text.splitOn '/' (Text.join "/" (first :: more)) = first :: more :=
        splitOn_join_segments (by simp) fun s hs => (h s (hsegments ▸ hs)).1.1
      rw [hsplit, List.filter_cons_of_neg (by simp), List.filter_eq_self]
      intro s hs
      have hname := (h s (hsegments ▸ hs)).1
      simpa using ⟨hname.1.1, hname.2.1⟩
  rw [path, ← hparts]
  rfl

end Location

/-! ## Paths -/

namespace Path

variable {path : Path}

/-- A path as it is read from a text: without empty segments and without `.`. -/
def Written (path : Path) : Prop := ∀ segment ∈ path.segments, IsSegment segment ∧ segment ≠ ['.']

theorem written_ofText (t : Text) : (ofText t).Written := by
  intro s hs
  obtain ⟨hpart, hkept⟩ := List.mem_filter.mp hs
  rw [Bool.and_eq_true] at hkept
  refine ⟨⟨?_, Text.separator_not_mem_splitOn hpart⟩, by simpa using hkept.2⟩
  simpa using hkept.1

theorem hasNull_eq_false : path.hasNull = false ↔ ∀ segment ∈ path.segments, '\x00' ∉ segment := by
  simp [hasNull]

theorem checked_of_clean (h : path.hasNull = false) : path.checked = .ok path :=
  if_neg (by simp [h])

theorem checked_of_null (h : path.hasNull = true) : path.checked = .error .nullCharacter :=
  if_pos h

/-- What is handed to the system names a location without detours. -/
theorem direct_resolve {workingDirectory : Location} (h : workingDirectory.Direct)
    (hwritten : path.Written) (hnull : path.hasNull = false) :
    (path.resolve workingDirectory).Direct := by
  have hstart : (path.start workingDirectory).Direct := by
    unfold start
    split
    · intro s hs
      cases hs
    · exact h
  have hsteps : ∀ s ∈ path.segments, IsStep s := fun s hs =>
    ⟨(hwritten s hs).1, (hwritten s hs).2, hasNull_eq_false.mp hnull s hs⟩
  unfold resolve
  generalize path.start workingDirectory = start at hstart ⊢
  generalize path.segments = segments at hsteps ⊢
  induction segments generalizing start with
  | nil => exact hstart
  | cons s segments ih =>
    obtain ⟨hs, hrest⟩ := List.forall_mem_cons.mp hsteps
    exact ih _ (hstart.follow hs) hrest

end Path

namespace Location

variable {location : Location}

theorem Direct.hasNull_path (h : location.Direct) : location.path.hasNull = false :=
  Path.hasNull_eq_false.mpr fun s hs => (h s hs).1.2.2

end Location

namespace Host

variable {host : Host} {path expanded : Path}

theorem homePath?_eq_some {user : Text} {home : Path} (h : host.homePath? user = some home) :
    home.Written ∧ home.hasNull = false := by
  unfold homePath? at h
  split at h
  · cases h
  · rename_i directory _
    split at h
    · rw [← Option.some.inj h]
      exact ⟨fun s hs => (List.not_mem_nil hs).elim, rfl⟩
    · split at h
      · cases h
      · rename_i htext
        rw [← Option.some.inj h]
        refine ⟨Path.written_ofText directory, Path.hasNull_eq_false.mpr fun s hs hnull => htext ?_⟩
        have hmem := (Text.of_mem_splitOn (List.mem_filter.mp hs).1 hnull).1
        simp [hmem]

/-- A path and what its home directory makes of it. -/
inductive Expands (host : Host) (path : Path) : Path → Prop
  | plain (huser : path.user? = none) : Expands host path path
  | home {user : Text} {rest : List Text} {home : Path} (huser : '\x00' ∉ user)
      (hpath : path.segments = ('~' :: user) :: rest) (hhome : host.homePath? user = some home) :
      Expands host path { home with segments := home.segments ++ rest }

theorem expands_of_expand (h : host.expand path = .ok expanded) : host.Expands path expanded := by
  unfold expand at h
  split at h
  · rename_i huser
    rw [← Except.ok.inj h]
    exact .plain huser
  · rename_i user huser
    split at h
    · cases h
    · rename_i hnull
      split at h
      · cases h
      · rename_i home hhome
        obtain ⟨rest, hpath⟩ : ∃ rest, path.segments = ('~' :: user) :: rest := by
          unfold Path.user? at huser
          split at huser
          · rename_i rest _ hsegments
            exact ⟨rest, hsegments.trans (by rw [Option.some.inj huser])⟩
          · cases huser
        rw [← Except.ok.inj h, hpath]
        exact .home (by simpa using hnull) hpath hhome

theorem Expands.written (h : host.Expands path expanded) (hwritten : path.Written) :
    expanded.Written := by
  cases h with
  | plain _ => exact hwritten
  | home _ hpath hhome =>
    intro s hs
    rcases List.mem_append.mp hs with hs | hs
    · exact (homePath?_eq_some hhome).1 s hs
    · exact hwritten s (hpath ▸ List.mem_cons_of_mem _ hs)

/-- No null character comes in with a home directory, and none goes. -/
theorem Expands.hasNull_eq (h : host.Expands path expanded) : expanded.hasNull = path.hasNull := by
  cases h with
  | plain _ => rfl
  | @home user rest home huser hpath hhome =>
    have hhomeNull : home.segments.any (·.contains '\x00') = false := (homePath?_eq_some hhome).2
    have huserNull : (('~' :: user) : Text).contains '\x00' = false := by simpa using huser
    rw [Path.hasNull, Path.hasNull, List.any_append, hhomeNull, hpath, List.any_cons, huserNull]

/-- A location is the place of its own path. -/
theorem locate_text {location : Location} (h : location.Direct) (files : Files) :
    host.locate files (Path.ofText location.text) = .ok location := by
  rw [h.ofText_text]
  show (do return files.resolve (← location.path.checked)) = _
  rw [Path.checked_of_clean h.hasNull_path]
  exact congrArg Except.ok (h.resolve_path _)

theorem locate_eq_ok {files : Files} {root : Location} (h : host.locate files path = .ok root) :
    ∃ expanded, host.Expands path expanded ∧ expanded.hasNull = false ∧
      files.resolve expanded = root := by
  unfold locate at h
  cases hexpand : host.expand path with
  | error breakdown =>
    rw [hexpand] at h
    cases h
  | ok expanded =>
    rw [hexpand] at h
    change (do return files.resolve (← expanded.checked)) = _ at h
    cases hnull : expanded.hasNull with
    | true =>
      rw [Path.checked_of_null hnull] at h
      cases h
    | false =>
      rw [Path.checked_of_clean hnull] at h
      exact ⟨expanded, expands_of_expand hexpand, hnull, Except.ok.inj h⟩

/-- Paths lead to locations without detours. -/
theorem direct_locate {files : Files} {root : Location} (h : files.workingDirectory.Direct) {t : Text}
    (hplace : host.locate files (Path.ofText t) = .ok root) : root.Direct := by
  obtain ⟨expanded, hexpands, hnull, rfl⟩ := locate_eq_ok hplace
  exact Path.direct_resolve h (hexpands.written (Path.written_ofText t)) hnull

end Host

namespace Files

variable {files : Files} {location : Location}

/-! ## Nodes -/

theorem node?_append (tree : Tree) (segments more : List Text) :
    tree.node? (segments ++ more) = (tree.node? segments).bind (·.node? more) :=
  List.foldlM_append

theorem entry?_putEntry (entries : List (Text × Tree)) (name : Text) (node : Tree) :
    Tree.entry? (.directory (Tree.putEntry name node entries)) name = some node := by
  rw [Tree.entry?]
  induction entries with
  | nil => simp [Tree.putEntry]
  | cons first rest ih =>
    unfold Tree.putEntry
    split
    · simp
    · rename_i hne
      split
      · simp
      · have hother : (name == first.1) = false := by
          rw [beq_eq_false_iff_ne]
          exact fun he => hne (beq_iff_eq.mpr he.symm)
        rw [List.lookup_cons, hother]
        exact ih

/-- What is put at a place is there. -/
theorem node?_put (tree : Tree) (segments : List Text) (node : Tree) :
    (tree.put segments node).node? segments = some node := by
  induction segments generalizing tree with
  | nil => rfl
  | cons name segments ih =>
    rw [Tree.put, Tree.node?, List.foldlM_cons, entry?_putEntry]
    exact ih _

/-- A directory is reached from any directory above it. -/
theorem foldlM_walkStep {entries : List (Text × Tree)} {segments above : List Text}
    (hnode : files.node? ⟨above ++ segments⟩ = some (.directory entries))
    (hnames : ∀ segment ∈ segments, segment ≠ stepUp) :
    segments.foldlM files.walkStep ⟨above⟩ = .ok ⟨above ++ segments⟩ := by
  induction segments generalizing above with
  | nil => simp [pure, Except.pure]
  | cons segment segments ih =>
    obtain ⟨hsegment, hrest⟩ := List.forall_mem_cons.mp hnames
    have hsplit : above ++ segment :: segments = (above ++ [segment]) ++ segments := by simp
    have hfollow : (⟨above⟩ : Location).follow segment = ⟨above ++ [segment]⟩ := by
      rw [Location.follow, if_neg (by simpa using hsegment), Location.child]
    have hstep : files.walkStep ⟨above⟩ segment = .ok ⟨above ++ [segment]⟩ := by
      have hnext := hnode
      rw [node?, hsplit, node?_append, Option.bind_eq_some_iff] at hnext
      obtain ⟨next, hnext, -⟩ := hnext
      have habove := hnext
      rw [node?_append, Option.bind_eq_some_iff] at habove
      obtain ⟨inside, hinside, hentry⟩ := habove
      have hcontains : files.contains ⟨above ++ [segment]⟩ = true := by
        rw [contains, node?, hnext]
        rfl
      cases inside with
      | file content => cases hentry
      | directory inside =>
        rw [walkStep, node?, hinside]
        simp only [hfollow, hcontains, if_true]
    rw [List.foldlM_cons, hstep, hsplit]
    exact ih (hsplit ▸ hnode) hrest

theorem leadsToDirectory_of_node? {entries : List (Text × Tree)} (hdirect : location.Direct)
    (hfits : files.overlong location.path = false)
    (hnode : files.node? location = some (.directory entries)) :
    files.leadsToDirectory location.path = .ok true := by
  have hreach : files.reach location.path = .ok location :=
    @foldlM_walkStep _ _ _ [] hnode fun s hs => (hdirect s hs).2
  rw [leadsToDirectory, if_neg (by simp [hdirect.hasNull_path]), if_neg (by simp [hfits]), hreach]
  simp [hasDirectory, hnode, Tree.isDirectory]

/-- The settings of a directory are in the file of that name in it. -/
theorem fileFor_directory {host : Host} {entries : List (Text × Tree)} (hdirect : location.Direct)
    (hfits : files.overlong location.path = false)
    (hnode : files.node? location = some (.directory entries)) :
    Settings.fileFor host files location.path = .ok (location.child Settings.fileName) := by
  have hchild : (location.child Settings.fileName).Direct := by
    intro s hs
    rcases List.mem_append.mp hs with hs | hs
    · exact hdirect s hs
    · rw [List.mem_singleton.mp hs]
      decide
  show (do
    let isDirectory ← (files.leadsToDirectory location.path).mapError (LoadError.broken ∘ .file)
    let file ← (Settings.filePath location.path isDirectory).checked.mapError .broken
    return files.resolve file) = _
  rw [leadsToDirectory_of_node? hdirect hfits hnode]
  show (do
    let file ← (location.child Settings.fileName).path.checked.mapError LoadError.broken
    return files.resolve file) = _
  rw [Path.checked_of_clean hchild.hasNull_path]
  exact congrArg Except.ok (hchild.resolve_path _)

/-! ## Names that are too long -/

theorem meetsLongName_append (segments more : List Text) (location : Location)
    (h : files.meetsLongName location segments = true) :
    files.meetsLongName location (segments ++ more) = true := by
  induction segments generalizing location with
  | nil => cases h
  | cons name rest ih =>
    rw [List.cons_append, meetsLongName, Bool.and_eq_true, Bool.or_eq_true] at *
    exact ⟨h.1, h.2.imp_right (ih _)⟩

/-- An entry of a directory that cannot be asked about cannot be asked about either. -/
theorem overlong_child (h : files.overlong location.path = true) (name : Text) :
    files.overlong (location.child name).path = true := by
  unfold overlong at *
  rw [Bool.or_eq_true, decide_eq_true_eq] at *
  refine h.imp (fun hsize => ?_) (meetsLongName_append _ [name] _)
  -- a longer path is a longer text, since what is added comes behind; the root's own slash is shared
  have hmore : ∃ more, (location.child name).path.text = location.path.text ++ more := by
    show ∃ more, '/' :: Text.join "/" (location.segments ++ [name]) =
      '/' :: Text.join "/" location.segments ++ more
    by_cases hroot : location.segments = []
    · rw [hroot]
      exact ⟨name, congrArg (List.cons _) (Text.join_singleton _ name)⟩
    · exact ⟨"/" ++ name, by rw [Text.join_concat _ _ hroot, List.cons_append, List.append_assoc]⟩
  obtain ⟨more, htext⟩ := hmore
  rw [htext, Utf8.size, Utf8.encode, List.flatMap_append, List.length_append]
  exact Nat.lt_add_right _ hsize

/-! ## Files that are no texts -/

/-- A file whose bytes stand for no text. -/
def Undecodable (files : Files) (location : Location) : Prop :=
  ∃ content, files.node? location = some (.file content) ∧ Utf8.decode? content = none

/-- Something other than a text that stands where a text is looked for. -/
def Unreadable (files : Files) (location : Location) : Prop :=
  files.Undecodable location ∨ ∃ entries, files.node? location = some (.directory entries)

theorem contains_of_node? {node : Tree} (h : files.node? location = some node) :
    files.contains location = true := by
  rw [contains, h]
  rfl

theorem Undecodable.contains (h : files.Undecodable location) : files.contains location = true := by
  obtain ⟨content, hnode, -⟩ := h
  exact contains_of_node? hnode

theorem Unreadable.contains (h : files.Unreadable location) : files.contains location = true := by
  cases h with
  | inl h => exact h.contains
  | inr h =>
    obtain ⟨entries, hnode⟩ := h
    exact contains_of_node? hnode

section Fits

variable (hfits : files.overlong location.path = false)
include hfits

theorem finds_of_fits : files.finds location = .ok (files.contains location) := by
  rw [finds, if_neg (by simp [hfits])]

theorem readText_of_missing (h : files.contains location = false) :
    files.readText location = .error (.file ⟨.missing, location.text⟩) := by
  have hnode : files.node? location = none := by simpa [contains] using h
  rw [readText, if_neg (by simp [hfits]), hnode]

theorem readText_of_directory {entries : List (Text × Tree)}
    (hnode : files.node? location = some (.directory entries)) :
    files.readText location = .error (.file ⟨.isADirectory, location.text⟩) := by
  rw [readText, if_neg (by simp [hfits]), hnode]

theorem readText_eq_undecodable :
    files.readText location = .error .undecodable ↔ files.Undecodable location := by
  rw [readText, if_neg (by simp [hfits])]
  unfold Undecodable
  cases files.node? location with
  | none => simp
  | some node =>
    cases node with
    | directory entries => simp
    | file content => cases hdecode : Utf8.decode? content <;> simp [hdecode]

/-- What is there is a text, or it is unreadable. -/
theorem readText_of_readable (hcontains : files.contains location = true)
    (h : ¬ files.Unreadable location) : ∃ text, files.readText location = .ok text := by
  rw [contains, Option.isSome_iff_exists] at hcontains
  obtain ⟨node, hnode⟩ := hcontains
  cases node with
  | directory entries => exact absurd (.inr ⟨entries, hnode⟩) h
  | file content =>
    cases hdecode : Utf8.decode? content with
    | none => exact absurd (.inl ⟨content, hnode, hdecode⟩) h
    | some text =>
      refine ⟨text.normalizeLineEnds, ?_⟩
      rw [readText, if_neg (by simp [hfits]), hnode]
      simp only [hdecode]

end Fits

/-! ## Writing -/

theorem eq_resolve_of_reach {path : Path} (h : files.reach path = .ok location) :
    location = files.resolve path := by
  unfold reach at h
  unfold resolve Path.resolve
  generalize path.start files.workingDirectory = start at h ⊢
  generalize path.segments = segments at h ⊢
  induction segments generalizing start with
  | nil => exact (Except.ok.inj h).symm
  | cons segment segments ih =>
    rw [List.foldlM_cons] at h
    cases hstep : files.walkStep start segment with
    | error fault =>
      rw [hstep] at h
      cases h
    | ok next =>
      rw [hstep] at h
      have hnext : next = start.follow segment := by
        unfold walkStep at hstep
        split at hstep
        · cases hstep
        · cases hstep
        · simp only at hstep
          split at hstep
          · exact (Except.ok.inj hstep).symm
          · cases hstep
      rw [List.foldl_cons, ← hnext]
      exact ih next h

theorem eq_resolve_of_placeFor {path : Path} {name : Text} (hlast : path.segments.getLast? = some name)
    (h : files.placeFor path name = .ok location) : location = files.resolve path := by
  unfold placeFor at h
  split at h
  · cases h
  · split at h
    · cases h
    · rename_i directory hreach
      split at h
      · obtain ⟨front, hfront⟩ := List.getLast?_eq_some_iff.mp hlast
        rw [← Except.ok.inj h, eq_resolve_of_reach hreach]
        simp [resolve, Path.resolve, Path.parent, Path.start, hfront]
      · cases h

theorem eq_resolve_of_openForWriting {path : Path} {content : List UInt8}
    (h : files.openForWriting path = .ok (location, content)) : location = files.resolve path := by
  unfold openForWriting at h
  simp only at h
  split at h
  · cases h
  · rename_i name hlast
    split at h
    · cases h
    · rename_i place hplace
      have hresolve := eq_resolve_of_placeFor hlast hplace
      split at h
      · cases h
      · rw [← hresolve, (Prod.mk.inj (Except.ok.inj h)).1]
      · rw [← hresolve, (Prod.mk.inj (Except.ok.inj h)).1]

/-- A file that was written holds what was written, at the place where its path leads. -/
theorem node?_of_write {path : Path} {content : List UInt8} {written : Files}
    (h : files.write path content = .ok written) :
    written.node? (written.resolve path) = some (.file content) := by
  unfold write at h
  cases hopen : files.openForWriting path with
  | error error =>
    rw [hopen] at h
    cases h
  | ok opened =>
    obtain ⟨place, before⟩ := opened
    rw [hopen] at h
    obtain rfl := Except.ok.inj h
    have hplace := eq_resolve_of_openForWriting hopen
    change ((files.tree.put place.segments (.file content)).node? (files.resolve path).segments) = _
    rw [hplace]
    exact node?_put _ _ _

/-! ## The working directory -/

theorem workingDirectory_of_append {path : Path} {content : List UInt8} {written : Files}
    (h : files.append path content = .ok written) :
    written.workingDirectory = files.workingDirectory := by
  unfold append at h
  cases hopen : files.openForWriting path with
  | error error =>
    rw [hopen] at h
    cases h
  | ok opened =>
    rw [hopen] at h
    rw [← Except.ok.inj h]
    rfl

theorem workingDirectory_of_createDirectory {path : Path} {made : Files}
    (h : files.createDirectory path = .ok made) : made.workingDirectory = files.workingDirectory := by
  unfold createDirectory at h
  split at h
  · cases h
  · rename_i name _
    cases hplace : files.placeFor path name with
    | error fault =>
      rw [hplace] at h
      cases h
    | ok place =>
      rw [hplace] at h
      change (if files.contains place then Except.error FileFault.alreadyExists
        else .ok (files.put place (.directory []))) = .ok made at h
      split at h
      · cases h
      · rw [← Except.ok.inj h]
        rfl

theorem workingDirectory_ensureDirectory (files : Files) (path : Path) :
    (files.ensureDirectory path).1.workingDirectory = files.workingDirectory := by
  unfold ensureDirectory
  split
  · rename_i hmade
    exact workingDirectory_of_createDirectory hmade
  · split <;> rfl

theorem workingDirectory_makeDirectory (files : Files) (path : Path) :
    (files.makeDirectory path).1.workingDirectory = files.workingDirectory := by
  unfold makeDirectory
  generalize path.segments.reverse = segments
  induction segments generalizing files with
  | nil => exact workingDirectory_ensureDirectory _ _
  | cons name above ih =>
    rw [makeDirectoryFrom]
    split
    · have habove := ih files
      split
      · rename_i made hmade
        rw [hmade] at habove
        exact (workingDirectory_ensureDirectory _ _).trans habove
      · exact habove
    · exact workingDirectory_ensureDirectory _ _

end Files

end ComponentAudit
