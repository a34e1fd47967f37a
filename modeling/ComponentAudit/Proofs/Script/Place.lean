import ComponentAudit.Proofs.Script.Name

/-! # Where declarations and imports stand

Readers only move forward (`Cursor.Leads`), so a statement starts no later than the names that it
declares, and an import ends behind its first word and inside the script. -/

namespace ComponentAudit

/-! ## Variables -/

namespace Binding

theorem le_of_mem_ofDeclarators {c : Cursor} {b : Binding} (h : b ∈ ofDeclarators c) :
    c.offset ≤ b.offset := by
  fun_induction ofDeclarators c with
  | case1 => cases h
  | case2 c found stop hd rest _ ih =>
    obtain ⟨hlead, hfound⟩ := leads_declarator? hd
    rcases List.mem_append.mp h with h | h
    · exact hfound b h
    · have hnext := (hlead.trans (Statement.leads_stop stop)).trans (Cursor.leads_advance _ 1)
      exact Nat.le_trans hnext.le (ih h)
  | case3 c found stop hd _ => exact (leads_declarator? hd).2 b h

end Binding

namespace Variable

theorem statement_le_exportedProp? {c stop : Cursor} {found : FoundVariable}
    (h : exportedProp? c = some (found, stop)) : found.statement ≤ found.nameOffset := by
  obtain ⟨behind, place, hbehind, hplace, -, hfound⟩ := exists_of_exportedProp? h
  rw [hfound]
  exact ((Cursor.leads_wordAndSpaces? hbehind).trans (Cursor.leads_oneOf? hplace)).le

theorem statement_le_reactive? {c stop : Cursor} {found : FoundVariable}
    (h : reactive? c = some (found, stop)) : found.statement ≤ found.nameOffset := by
  obtain ⟨label, behind, hlabel, -, -, hfound⟩ := exists_of_reactive? h
  have hstart := (Cursor.leads_skipWhile _ c).trans (Cursor.leads_expect? hlabel)
  rw [hfound]
  exact (hstart.trans (Cursor.leads_skipSpaces label)).le

theorem statement_le_patternProps {script : Text} {found : FoundVariable}
    (h : found ∈ patternProps script) : found.statement ≤ found.nameOffset := by
  obtain ⟨c, stop, statement, brace, size, b, -, hr, -, hb, rfl⟩ := exists_of_mem_patternProps h
  obtain ⟨rfl, -, keyword, hword, rfl⟩ := exists_of_patternStart? hr
  have hlead := (hword.elim Cursor.leads_expect? Cursor.leads_expect?).trans (Cursor.leads_skipSpaces keyword)
  have hle := hlead.le
  have hinside := Binding.le_of_mem_ofPattern hb
  change c.offset ≤ b.offset
  omega

theorem statement_le_declared {script : Text} {found : FoundVariable} (h : found ∈ declared script) :
    found.statement ≤ found.nameOffset := by
  obtain ⟨c, stop, place, kind, rest, b, -, hr, hb, rfl⟩ := exists_of_mem_declared h
  obtain ⟨rfl, hkeyword, -⟩ := oneOf?_of_declaration? hr
  exact Nat.le_trans (Cursor.leads_oneOf? hkeyword).le (Binding.le_of_mem_ofDeclarators hb)

/-- A statement starts no later than the names that it declares. -/
theorem statement_le_findAll {script : Text} {offsets : List Nat} {found : FoundVariable}
    (h : found ∈ findAll script offsets) : found.statement ≤ found.nameOffset := by
  have hmem := (List.mem_filter.mp (mem_of_mem_keepFirstFrom h)).1
  simp only [List.mem_append] at hmem
  rcases hmem with ((hprop | hpattern) | hplain) | hreactive
  · obtain ⟨c, stop, _, hr⟩ := Cursor.mem_collect hprop
    exact statement_le_exportedProp? hr
  · exact statement_le_patternProps hpattern
  · exact statement_le_declared hplain
  · obtain ⟨c, stop, _, hr⟩ := Cursor.mem_collect hreactive
    exact statement_le_reactive? hr

end Variable

/-! ## Imports -/

/-- An import opens with its word, and ends behind it inside the script. -/
structure FoundImport.PlacedIn (script : Text) (found : FoundImport) : Prop where
  word : ("import" : Text) <+: script.drop found.start
  nonempty : found.start < found.stop
  inside : found.stop ≤ script.length

namespace Import

theorem leads_source? {c stop : Cursor} {path : Text} (h : source? c = some (path, stop)) :
    c.Leads stop := by
  unfold source? at h
  simp only [Option.bind_eq_bind] at h
  split at h
  · cases h
  · obtain ⟨word, hword, hpath⟩ := Option.bind_eq_some_iff.mp h
    have hstart := (Cursor.leads_skipSpaces c).trans (Cursor.leads_expect? hword)
    exact (hstart.trans (Cursor.leads_skipSpaces word)).trans (Cursor.leads_literal? hpath)

-- the generated equations of `clauseFrom` are costly, so its step is stated once
theorem clauseFrom_cons (before : Text) (c : Char) (rest : Text) :
    clauseFrom before (c :: rest) =
      match source? ⟨before, c :: rest⟩ with
      | some (path, stop) => some ([], path, stop)
      | none =>
        if c == ';' || isQuote c || atImportWord ⟨before, c :: rest⟩ then none
        else (clauseFrom (c :: before) rest).map fun (clause, found) => (c :: clause, found) := by
  rfl

theorem leads_clauseFrom {before after clause path : Text} {stop : Cursor}
    (h : clauseFrom before after = some (clause, path, stop)) : Cursor.Leads ⟨before, after⟩ stop := by
  induction after generalizing before clause with
  | nil => cases h
  | cons c after ih =>
    rw [clauseFrom_cons] at h
    split at h
    · rename_i hsource
      simp only [Option.some.injEq, Prod.mk.injEq] at h
      rw [← h.2.2]
      exact leads_source? hsource
    · split at h
      · cases h
      · obtain ⟨⟨rest, found⟩, hrest, he⟩ := Option.map_eq_some_iff.mp h
        simp only [Prod.mk.injEq] at he
        rw [he.2] at hrest
        exact (Cursor.leads_cons before after c).trans (ih hrest)

/-- An import whose word was read at a place and that a reader got to the end of from there. -/
theorem placedIn_of_leads {c next stop : Cursor} {found : FoundImport}
    (hword : c.expect? "import" = some next) (hstop : next.Leads stop) (hstart : found.start = c.offset)
    (hend : found.stop = stop.offset) : found.PlacedIn c.text := by
  have hreads := Cursor.expect?_eq_some.mp hword
  have hlead := (Cursor.leads_expect? hword).trans hstop
  refine ⟨?_, ?_, ?_⟩
  · rw [hstart, ← Cursor.after_of_text rfl, hreads.after]
    exact List.prefix_append _ _
  · have hlen := hreads.offset
    have hle := hstop.le
    rw [show ("import" : Text).length = 6 from rfl] at hlen
    omega
  · rw [hend, ← hlead.text]
    exact stop.offset_le_length

theorem placedIn_clauseImport? {c stop : Cursor} {found : FoundImport}
    (h : clauseImport? c = some (found, stop)) : found.PlacedIn c.text := by
  unfold clauseImport? at h
  split at h
  · cases h
  · simp only [Option.bind_eq_bind, Option.bind_eq_some_iff, Prod.exists] at h
    obtain ⟨inside, hinside, clause, path, next, hclause, he⟩ := h
    obtain ⟨rfl, rfl⟩ := Prod.mk.inj (Option.some.inj he)
    obtain ⟨word, hword, hspaces⟩ := Option.bind_eq_some_iff.mp hinside
    exact placedIn_of_leads hword ((Cursor.leads_spaces? hspaces).trans (leads_clauseFrom hclause))
      rfl rfl

theorem placedIn_bareImport? {c stop : Cursor} {found : FoundImport}
    (h : bareImport? c = some (found, stop)) : found.PlacedIn c.text := by
  unfold bareImport? at h
  split at h
  · cases h
  · simp only [Option.bind_eq_bind, Option.bind_eq_some_iff, Prod.exists] at h
    obtain ⟨word, hword, path, next, hpath, he⟩ := h
    obtain ⟨rfl, rfl⟩ := Prod.mk.inj (Option.some.inj he)
    exact placedIn_of_leads hword ((Cursor.leads_skipSpaces word).trans (Cursor.leads_literal? hpath))
      rfl rfl

theorem placedIn_dynamicImport? {c stop : Cursor} {found : FoundImport}
    (h : dynamicImport? c = some (found, stop)) : found.PlacedIn c.text := by
  unfold dynamicImport? at h
  split at h
  · cases h
  · simp only [Option.bind_eq_bind, Option.bind_eq_some_iff, Prod.exists] at h
    obtain ⟨word, hword, inside, hinside, path, rest, hpath, next, hnext, he⟩ := h
    obtain ⟨rfl, rfl⟩ := Prod.mk.inj (Option.some.inj he)
    have hparen := (Cursor.leads_skipSpaces word).trans (Cursor.leads_expect? hinside)
    have hliteral := (Cursor.leads_skipSpaces inside).trans (Cursor.leads_literal? hpath)
    have hclose := (Cursor.leads_skipSpaces rest).trans (Cursor.leads_expect? hnext)
    exact placedIn_of_leads hword ((hparen.trans hliteral).trans hclose) rfl rfl

theorem placedIn_findAll {script : Text} {found : FoundImport} (h : found ∈ findAll script) :
    found.PlacedIn script := by
  have hmem := List.mem_mergeSort.mp h
  simp only [List.mem_append] at hmem
  rcases hmem with (hclause | hbare) | hdynamic
  · obtain ⟨c, stop, rfl, hr⟩ := Cursor.mem_collect hclause
    exact placedIn_clauseImport? hr
  · obtain ⟨c, stop, rfl, hr⟩ := Cursor.mem_collect hbare
    exact placedIn_bareImport? hr
  · obtain ⟨c, stop, rfl, hr⟩ := Cursor.mem_collect hdynamic
    exact placedIn_dynamicImport? hr

end Import

end ComponentAudit
