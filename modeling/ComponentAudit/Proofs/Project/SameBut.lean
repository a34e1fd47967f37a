import ComponentAudit.Proofs.Project.Files

/-! # File systems that differ in one file

What is put at a place leaves alone what stands elsewhere. So two file systems into which different
contents of one file were put are the same to whatever does not read that file: paths lead to the same
places, other files hold the same texts, and settings in other files are the same
(`Files.SameBut.load_eq`). -/

namespace ComponentAudit

/-! ## Entries that are put -/

namespace Tree

/-- The content of a file; none for a directory. -/
def content? : Tree → Option (List UInt8)
  | .file content => some content
  | .directory _ => none

theorem isDirectory_eq (tree : Tree) : tree.isDirectory = tree.content?.isNone := by
  cases tree <;> rfl

theorem node?_cons (tree : Tree) (name : Text) (segments : List Text) :
    tree.node? (name :: segments) = (tree.entry? name).bind (·.node? segments) := by
  rw [node?, List.foldlM_cons]
  rfl

/-- What is put among some entries comes in at one place, whatever it is, and takes the place of at most
one entry. -/
theorem exists_putEntry (name : Text) (entries : List (Text × Tree)) : ∃ before after,
    (∀ node, putEntry name node entries = before ++ (name, node) :: after) ∧
      (entries = before ++ after ∨ ∃ old, entries = before ++ (name, old) :: after) := by
  induction entries with
  | nil => exact ⟨[], [], fun _ => rfl, .inl rfl⟩
  | cons entry rest ih =>
    obtain ⟨key, old⟩ := entry
    by_cases hkey : key = name
    · subst hkey
      refine ⟨[], rest, fun node => ?_, .inr ⟨old, rfl⟩⟩
      rw [putEntry, if_pos (beq_self_eq_true key)]
      rfl
    · have hput : ∀ node, putEntry name node ((key, old) :: rest) =
          if Text.le name key then (name, node) :: (key, old) :: rest
          else (key, old) :: putEntry name node rest := by
        intro node
        rw [putEntry, if_neg (by simpa using hkey)]
      cases hle : Text.le name key with
      | true =>
        refine ⟨[], (key, old) :: rest, fun node => ?_, .inl rfl⟩
        rw [hput, hle]
        rfl
      | false =>
        obtain ⟨before, after, hrest, hentries⟩ := ih
        refine ⟨(key, old) :: before, after, fun node => ?_, ?_⟩
        · rw [hput, hle, hrest]
          rfl
        · rcases hentries with rfl | ⟨other, rfl⟩
          · exact .inl rfl
          · exact .inr ⟨other, rfl⟩

/-- An entry that is put into a directory leaves the others as they are. -/
theorem entry?_putEntry_of_ne {name other : Text} (h : other ≠ name) (node : Tree)
    (entries : List (Text × Tree)) :
    entry? (.directory (putEntry name node entries)) other = entry? (.directory entries) other := by
  have hname : (other == name) = false := by simpa using h
  have hskip : ∀ (node : Tree) rest, ((name, node) :: rest).lookup other = rest.lookup other := by
    intro node rest
    rw [List.lookup_cons, hname]
  obtain ⟨before, after, hput, hentries⟩ := exists_putEntry name entries
  change (putEntry name node entries).lookup other = entries.lookup other
  rw [hput, List.lookup_append, hskip, ← List.lookup_append]
  rcases hentries with rfl | ⟨old, rfl⟩
  · rfl
  · rw [List.lookup_append, List.lookup_append, hskip]

/-- What stands elsewhere does not depend on the content of a file. -/
theorem content?_put {segments other : List Text} (h : other ≠ segments) (tree : Tree)
    (first second : List UInt8) :
    ((tree.put segments (.file first)).node? other).map content? =
      ((tree.put segments (.file second)).node? other).map content? := by
  induction segments generalizing tree other with
  | nil =>
    obtain ⟨name, rest, rfl⟩ := List.exists_cons_of_ne_nil h
    rw [put, put, node?_cons, node?_cons]
    rfl
  | cons name segments ih =>
    cases other with
    | nil => rfl
    | cons otherName other =>
      rw [put, put, node?_cons, node?_cons]
      by_cases hname : otherName = name
      · subst hname
        rw [Files.entry?_putEntry, Files.entry?_putEntry]
        exact ih (fun heq => h (by rw [heq])) _
      · rw [entry?_putEntry_of_ne hname, entry?_putEntry_of_ne hname]

/-- What is put below a directory is put into that directory. -/
theorem node?_put_below {tree inner : Tree} {above : List Text} (h : tree.node? above = some inner)
    (below : List Text) (node : Tree) :
    (tree.put (above ++ below) node).node? above = some (inner.put below node) := by
  induction above generalizing tree with
  | nil =>
    obtain rfl := Option.some.inj h
    rfl
  | cons name above ih =>
    rw [node?_cons, Option.bind_eq_some_iff] at h
    obtain ⟨next, hnext, hinner⟩ := h
    rw [List.cons_append, put, node?_cons, Files.entry?_putEntry, Option.bind_some, hnext,
      Option.getD_some]
    exact ih hinner

end Tree

namespace Files

theorem readText_eq_content (files : Files) (location : Location) :
    files.readText location =
      if files.overlong location.path then .error (.file ⟨.nameTooLong, location.text⟩)
      else
        match (files.node? location).map Tree.content? with
        | none => .error (.file ⟨.missing, location.text⟩)
        | some none => .error (.file ⟨.isADirectory, location.text⟩)
        | some (some content) =>
          match Utf8.decode? content with
          | none => .error .undecodable
          | some text => .ok (Text.normalizeLineEnds text) := by
  rw [readText]
  obtain _ | node := files.node? location
  · rfl
  · cases node <;> rfl

theorem walkStep_eq_kind (files : Files) (location : Location) (segment : Text) :
    files.walkStep location segment =
      match (files.node? location).map Tree.isDirectory with
      | none => .error .missing
      | some false => .error .notADirectory
      | some true =>
        if files.contains (location.follow segment) then .ok (location.follow segment)
        else .error .missing := by
  rw [walkStep]
  obtain _ | node := files.node? location
  · rfl
  · cases node <;> rfl

/-- Two file systems that differ at most in the content of the file at one place. -/
structure SameBut (place : Location) (files other : Files) : Prop where
  workingDirectory : files.workingDirectory = other.workingDirectory
  elsewhere : ∀ location ≠ place,
    (files.node? location).map Tree.content? = (other.node? location).map Tree.content?
  atPlace : (files.node? place).map Tree.isDirectory = (other.node? place).map Tree.isDirectory

namespace SameBut

variable {place location : Location} {files other : Files} (h : SameBut place files other)
include h

theorem kind_eq (location : Location) :
    (files.node? location).map Tree.isDirectory = (other.node? location).map Tree.isDirectory := by
  by_cases hplace : location = place
  · rw [hplace]
    exact h.atPlace
  · have hcontent := congrArg (Option.map Option.isNone) (h.elsewhere location hplace)
    simpa only [Option.map_map, Function.comp_def, ← Tree.isDirectory_eq] using hcontent

theorem contains_eq (location : Location) : files.contains location = other.contains location := by
  have hkind := congrArg Option.isSome (h.kind_eq location)
  rwa [Option.isSome_map, Option.isSome_map] at hkind

theorem hasDirectory_eq (location : Location) :
    files.hasDirectory location = other.hasDirectory location := by
  have hkind := congrArg (Option.any id) (h.kind_eq location)
  rwa [Option.any_map, Option.any_map] at hkind

theorem resolve_eq (path : Path) : files.resolve path = other.resolve path := by
  rw [resolve, resolve, h.workingDirectory]

theorem meetsLongName_eq (segments : List Text) (location : Location) :
    files.meetsLongName location segments = other.meetsLongName location segments := by
  induction segments generalizing location with
  | nil => rfl
  | cons name rest ih => rw [meetsLongName, meetsLongName, h.hasDirectory_eq, ih]

theorem overlong_eq (path : Path) : files.overlong path = other.overlong path := by
  rw [overlong, overlong, h.workingDirectory, h.meetsLongName_eq]

theorem readText_eq (hlocation : location ≠ place) :
    files.readText location = other.readText location := by
  rw [readText_eq_content, readText_eq_content, h.overlong_eq, h.elsewhere location hlocation]

theorem finds_eq (location : Location) : files.finds location = other.finds location := by
  rw [finds, finds, h.overlong_eq, h.contains_eq]

theorem walkStep_eq (location : Location) (segment : Text) :
    files.walkStep location segment = other.walkStep location segment := by
  rw [walkStep_eq_kind, walkStep_eq_kind, h.kind_eq, h.contains_eq]

theorem leadsToDirectory_eq (path : Path) : files.leadsToDirectory path = other.leadsToDirectory path := by
  have hreach : files.reach path = other.reach path := by
    rw [reach, reach, h.workingDirectory]
    exact congrArg (fun step => path.segments.foldlM step _)
      (funext fun location => funext (h.walkStep_eq location))
  rw [leadsToDirectory, leadsToDirectory, h.overlong_eq, hreach]
  split
  · rfl
  · split
    · rfl
    · split
      · rw [h.hasDirectory_eq]
      · rfl

variable (host : Host)

theorem fileFor_eq (path : Path) :
    Settings.fileFor host files path = Settings.fileFor host other path := by
  simp only [Settings.fileFor, h.leadsToDirectory_eq, h.resolve_eq]

/-- Settings from another file. -/
theorem load_eq {path : Path} (hpath : Settings.fileFor host files path ≠ .ok place) :
    Settings.load host files path = Settings.load host other path := by
  rw [Settings.load, Settings.load, ← h.fileFor_eq]
  cases hfile : Settings.fileFor host files path with
  | error error => rfl
  | ok file =>
    have hother : file ≠ place := fun hsame => hpath (hsame ▸ hfile)
    show Settings.ofFile host files file = Settings.ofFile host other file
    rw [Settings.ofFile, Settings.ofFile, h.finds_eq, h.readText_eq hother]

end SameBut

end Files

end ComponentAudit
