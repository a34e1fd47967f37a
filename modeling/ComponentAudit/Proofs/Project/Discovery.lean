import ComponentAudit.Project.Discovery
import ComponentAudit.Proofs.Project.Walk
import ComponentAudit.Proofs.Text.Lower

/-! # Working trees and snapshots select the same files

The files of a working tree are found by a walk that leaves out whole directories, and whose rules hold
the patterns of the settings twice. The files of a snapshot come as a list of paths, each judged by
itself and with the patterns once. Both select the same files. -/

namespace ComponentAudit

namespace IgnoreRule

/-! ## Rules given twice -/

/-- The verdict after one more rule. -/
def verdict (path : Text) (isDirectory ignored : Bool) (rule : IgnoreRule) : Bool :=
  if rule.isMatch path isDirectory then !rule.negate else ignored

theorem ignores_eq_foldl (rules : List IgnoreRule) (path : Text) (isDirectory : Bool) :
    ignores rules path isDirectory = rules.foldl (verdict path isDirectory) false := rfl

theorem foldl_verdict_of_no_match {path : Text} {isDirectory : Bool} {rules : List IgnoreRule}
    (h : ∀ rule ∈ rules, rule.isMatch path isDirectory = false) (ignored : Bool) :
    rules.foldl (verdict path isDirectory) ignored = ignored := by
  induction rules with
  | nil => rfl
  | cons rule rules ih =>
    have hrule : verdict path isDirectory ignored rule = ignored := by
      simp [verdict, h rule List.mem_cons_self]
    rw [List.foldl_cons, hrule, ih fun rule hrule => h rule (List.mem_cons_of_mem _ hrule)]

/-- Once a rule matches, what was decided before it is forgotten. -/
theorem foldl_verdict_of_match {path : Text} {isDirectory : Bool} {rules : List IgnoreRule}
    {rule : IgnoreRule} (hmem : rule ∈ rules) (hmatch : rule.isMatch path isDirectory = true)
    (before other : Bool) :
    rules.foldl (verdict path isDirectory) before = rules.foldl (verdict path isDirectory) other := by
  induction rules generalizing before other with
  | nil => cases hmem
  | cons first rules ih =>
    rw [List.foldl_cons, List.foldl_cons]
    rcases List.mem_cons.mp hmem with rfl | hmem
    · simp [verdict, hmatch]
    · exact ih hmem _ _

/-- Rules at the end that are given a second time change nothing. -/
theorem ignores_append_twice (rules again : List IgnoreRule) (path : Text) (isDirectory : Bool) :
    ignores (rules ++ again ++ again) path isDirectory = ignores (rules ++ again) path isDirectory := by
  simp only [ignores_eq_foldl, List.foldl_append]
  by_cases h : ∃ rule ∈ again, rule.isMatch path isDirectory = true
  · obtain ⟨rule, hmem, hmatch⟩ := h
    exact foldl_verdict_of_match hmem hmatch _ _
  · have hnone : ∀ rule ∈ again, rule.isMatch path isDirectory = false := by
      intro rule hmem
      exact Bool.eq_false_iff.mpr fun hmatch => h ⟨rule, hmem, hmatch⟩
    exact foldl_verdict_of_no_match hnone _

end IgnoreRule

/-! ## The directories above a file -/

namespace Tree

theorem isEntered_join {directories : List Text} (h : ∀ d ∈ directories, IsSegment d)
    (rules : List IgnoreRule) (name : Text) :
    isEntered rules (Text.join "/" directories) name =
      (!excludedDirectories.contains name &&
        !IgnoreRule.ignores rules (Text.join "/" (directories ++ [name])) true) := by
  rw [isEntered, entryPath_join h]

/-- A file below a directory is reached and kept if neither a name nor a rule stops the walk on the way
from there. -/
theorem passes_eq (rules : List IgnoreRule) :
    ∀ (segments directories : List Text), segments ≠ [] → (∀ s ∈ segments, IsSegment s) →
      (∀ d ∈ directories, IsSegment d) →
      passes rules directories segments =
        (!(segments.dropLast.any fun s => excludedDirectories.contains s) &&
          (!IgnoreRule.ignores rules (Text.join "/" (directories ++ segments)) false &&
            !((List.range segments.dropLast.length).any fun depth =>
              IgnoreRule.ignores rules
                (Text.join "/" (directories ++ segments.dropLast.take (depth + 1))) true)))
  | [], _, hne, _, _ => absurd rfl hne
  | [name], _, _, _, _ => by simp [passes]
  | name :: next :: rest, directories, _, hsegments, hdirectories => by
    -- one step down: `name` joins the directories above, and its own verdicts come to the front
    have hbelow := isSegment_concat hdirectories (hsegments name List.mem_cons_self)
    have ih := passes_eq rules (next :: rest) (directories ++ [name]) (by simp)
      (fun s hs => hsegments s (List.mem_cons_of_mem name hs)) hbelow
    have hlast : (name :: next :: rest).dropLast = name :: (next :: rest).dropLast := rfl
    rw [passes, ih, isEntered_join hdirectories, hlast]
    simp only [List.any_cons, List.length_cons, List.range_succ_eq_map, List.any_map, Function.comp_def,
      List.take_succ_cons, List.take_zero, List.append_assoc, List.singleton_append, Bool.not_or]
    ac_rfl

/-- From the root of a tree, the walk keeps what is judged by its whole path. -/
theorem passes_root (rules : List IgnoreRule) {segments : List Text} (hne : segments ≠ [])
    (h : ∀ s ∈ segments, IsSegment s) :
    passes rules [] segments =
      (!isExcludedPath (Text.join "/" segments) &&
        !IgnoreRule.ignoresFile rules (Text.join "/" segments)) := by
  have hsplit := splitOn_join_segments hne h
  rw [passes_eq rules segments [] hne h fun _ hd => (List.not_mem_nil hd).elim]
  simp only [isExcludedPath, IgnoreRule.ignoresFile, IgnoreRule.parents, hsplit, List.nil_append,
    List.any_map, Function.comp_def, Bool.not_or]

end Tree

/-! ## The extension of a path -/

theorem suffix_append_slash {extension : Text} (h : '/' ∉ extension) (front name : Text) :
    extension.isSuffixOf (front ++ '/' :: name) = extension.isSuffixOf name := by
  rw [Bool.eq_iff_iff, List.isSuffixOf_iff_suffix, List.isSuffixOf_iff_suffix]
  constructor
  · intro hsuffix
    by_cases hlength : extension.length ≤ name.length
    · have hname : name <:+ front ++ '/' :: name := ⟨front ++ ['/'], by simp⟩
      exact List.suffix_of_suffix_length_le hsuffix hname hlength
    · -- a longer extension would cover the slash
      have hslash : '/' :: name <:+ front ++ '/' :: name := List.suffix_append front _
      have hcovers : '/' :: name <:+ extension :=
        List.suffix_of_suffix_length_le hslash hsuffix (by simp; omega)
      exact absurd (hcovers.subset List.mem_cons_self) h
  · exact fun hsuffix => hsuffix.trans ⟨front ++ ['/'], by simp⟩

theorem slash_not_mem_normalizeExtension {extension : Text} (h : '/' ∉ extension) :
    '/' ∉ normalizeExtension extension := by
  have htrim : '/' ∉ Text.trim extension := by
    intro hmem
    have hleft := (List.dropWhile_sublist isSpace).subset (List.mem_reverse.mp hmem)
    exact h ((List.dropWhile_sublist isSpace).subset (List.mem_reverse.mp hleft))
  unfold normalizeExtension
  split
  · rename_i heq
    exact heq ▸ htrim
  · intro hmem
    rcases List.mem_cons.mp hmem with hdot | hmem
    · exact absurd hdot (by decide)
    · exact htrim hmem

namespace Selection

theorem slash_not_mem_of {extensions : List Text} (h : ∀ extension ∈ extensions, '/' ∉ extension)
    (excludePaths : List Text) :
    ∀ extension ∈ (Selection.of extensions excludePaths).extensions, '/' ∉ extension := by
  intro extension hmem
  obtain ⟨given, hgiven, rfl⟩ := List.mem_map.mp hmem
  refine slash_not_mem_normalizeExtension ?_
  split at hgiven
  · rw [List.mem_singleton.mp hgiven]
    decide
  · exact h given hgiven

theorem hasExtension_append_slash {selection : Selection}
    (h : ∀ extension ∈ selection.extensions, '/' ∉ extension) (front name : Text) :
    selection.hasExtension (front ++ '/' :: name) = selection.hasExtension name := by
  simp only [hasExtension, Text.lower_append_slash]
  rw [Bool.eq_iff_iff, List.any_eq_true, List.any_eq_true]
  refine exists_congr fun extension => and_congr_right fun hmem => ?_
  rw [suffix_append_slash (Text.slash_not_mem_lower (h extension hmem))]

/-- The last segment decides on the extension of a path. -/
theorem hasExtension_join {selection : Selection}
    (h : ∀ extension ∈ selection.extensions, '/' ∉ extension) {segments : List Text}
    (hne : segments ≠ []) :
    selection.hasExtension (segments.getLast?.getD []) =
      selection.hasExtension (Text.join "/" segments) := by
  obtain ⟨front, last, rfl⟩ : ∃ front last, segments = front ++ [last] :=
    ⟨_, _, (List.dropLast_concat_getLast hne).symm⟩
  rw [List.getLast?_append, List.getLast?_singleton]
  cases hfront : front with
  | nil => rw [List.nil_append, Text.join_singleton]; rfl
  | cons first more =>
    rw [← hfront, Text.join_concat "/" last (by simp [hfront]), List.append_assoc]
    exact (hasExtension_append_slash h _ _).symm

end Selection

/-! ## Two ways to the same files -/

namespace Discovery

/-- The walk selects what the paths of the tree are filtered to. -/
theorem select_perm_filterPaths {selection : Selection}
    (hextensions : ∀ extension ∈ selection.extensions, '/' ∉ extension) (rules : List IgnoreRule)
    {tree : Tree} (htree : Tree.WellNamed tree.entries) :
    (select selection
      (rules ++ IgnoreRule.ofLines selection.excludePaths ++ IgnoreRule.ofLines selection.excludePaths)
      tree).Perm (selection.filterPaths rules tree.filePaths) := by
  refine ((Tree.walk_perm _ htree).filter _).trans (List.Perm.trans ?_ (List.mergeSort_perm _ _).symm)
  rw [Tree.filePaths, List.filter_map, List.filter_map, List.filter_filter]
  refine List.Perm.of_eq (congrArg _ (List.filter_congr fun segments hmem => ?_))
  obtain ⟨hne, hsegments⟩ := Tree.segments_of_mem_fileSegments htree segments hmem
  simp only [Function.comp_apply, Selection.selects]
  rw [splitOn_join_segments hne hsegments, Selection.hasExtension_join hextensions hne, Tree.passes_root _ hne hsegments]
  simp only [IgnoreRule.ignoresFile, IgnoreRule.ignores_append_twice, Bool.and_assoc]

/-- A working tree and the list of its paths give the same files, and none of them twice. -/
theorem select_eq_filterPaths (tree : Tree) (htree : Tree.WellNamed tree.entries)
    (extensions : List Text) (hextensions : ∀ extension ∈ extensions, '/' ∉ extension)
    (excludePaths : List Text) (rules : List IgnoreRule) :
    let selection := Selection.of extensions excludePaths
    let found := select selection
      (rules ++ IgnoreRule.ofLines excludePaths ++ IgnoreRule.ofLines excludePaths) tree
    let filtered := selection.filterPaths rules tree.filePaths
    (∀ path, path ∈ found ↔ path ∈ filtered) ∧ found.Nodup ∧ filtered.Nodup := by
  intro selection found filtered
  have hperm : found.Perm filtered :=
    select_perm_filterPaths (Selection.slash_not_mem_of hextensions excludePaths) rules htree
  have hfiltered : filtered.Nodup := by
    have hkept := (Tree.nodup_filePaths htree).filter (selection.selects rules)
    exact (List.mergeSort_perm _ _).nodup_iff.mpr hkept
  exact ⟨fun _ => hperm.mem_iff, hperm.nodup_iff.mpr hfiltered, hfiltered⟩

/-- A project with a directory that is left out and a pattern that takes one of its files back. -/
def sampleTree : Tree :=
  .directory [
    ("App.svelte", .file []),
    ("drafts", .directory [("New.svelte", .file []), ("Old.svelte", .file [])]),
    ("node_modules", .directory [("Kit.svelte", .file [])]),
    ("src", .directory [("Old.svelte", .file []), ("notes.txt", .file [])])]

theorem wellNamed_sampleTree : Tree.WellNamed sampleTree.entries := by
  simp only [sampleTree, Tree.entries, Tree.WellNamed]
  decide

theorem select_eq_filterPaths_sampleTree :
    let selection := Selection.of [".svelte"] ["Old.*", "!src/Old.*"]
    let rules := IgnoreRule.ofLines ["drafts/"]
    let patterns := IgnoreRule.ofLines ["Old.*", "!src/Old.*"]
    (∀ path, path ∈ select selection (rules ++ patterns ++ patterns) sampleTree ↔
      path ∈ selection.filterPaths rules sampleTree.filePaths) ∧
      (select selection (rules ++ patterns ++ patterns) sampleTree).Nodup ∧
      (selection.filterPaths rules sampleTree.filePaths).Nodup :=
  select_eq_filterPaths sampleTree wellNamed_sampleTree [".svelte"] (by decide)
    ["Old.*", "!src/Old.*"] (IgnoreRule.ofLines ["drafts/"])

end Discovery

end ComponentAudit
