import ComponentAudit.Component.Analysis
import ComponentAudit.Proofs.Script.Place
import ComponentAudit.Proofs.Usage.Order

/-! # Imports are found once

An import is written in one of three forms, and each is searched for on its own. What stands behind the
word `import` tells them apart: a quote, a parenthesis with a quote behind it, or a clause, which goes
over no quote. So no two forms are read at one place (`forms_exclusive`), and the imports of a script
come in strictly increasing order of their offsets (`offsets_increase`). -/

namespace ComponentAudit

theorem isSpace_of_isQuote {q : Char} (h : isQuote q = true) : isSpace q = false ∧ q ≠ 'f' := by
  simp only [isQuote, Bool.or_eq_true, beq_iff_eq] at h
  rcases h with (rfl | rfl) | rfl <;> decide

theorem isQuote_of_isPathQuote {q : Char} (h : Import.isPathQuote q = true) : isQuote q = true := by
  simp only [isQuote, Bool.or_eq_true]
  exact .inl (Bool.or_eq_true _ _ ▸ h)

namespace Cursor

/-- White space in front of a character is passed over. -/
theorem skipSpaces_blank {before spaces rest : Text} {x : Char} (hspaces : Blank spaces)
    (hx : isSpace x = false) :
    skipSpaces ⟨before, spaces ++ x :: rest⟩ = ⟨spaces.reverse ++ before, x :: rest⟩ :=
  skipSpaces_of_reads (reads_append before spaces (x :: rest)) hspaces (reads_append _ [x] rest) hx

theorem exists_of_literal? {isDelimiter : Char → Bool} {c stop : Cursor} {path : Text}
    (h : c.literal? isDelimiter = some (path, stop)) :
    ∃ quote, c.peek? = some quote ∧ isDelimiter quote = true := by
  unfold literal? at h
  simp only [Option.bind_eq_bind, Option.bind_eq_some_iff] at h
  obtain ⟨quote, hpeek, h⟩ := h
  split at h
  · cases h
  · rename_i hquote
    exact ⟨quote, hpeek, by simpa using hquote⟩

theorem exists_of_peek? {c : Cursor} {x : Char} (h : c.peek? = some x) : ∃ rest, c.after = x :: rest := by
  unfold peek? at h
  cases hafter : c.after with
  | nil => simp [hafter] at h
  | cons d rest =>
    rw [hafter] at h
    exact ⟨rest, by rw [Option.some.inj h]⟩

end Cursor

namespace Import

/-! ## What stands behind the word -/

theorem source?_eq_none {c : Cursor} {x : Char} (hpeek : c.skipSpaces.peek? = some x) (hx : x ≠ 'f') :
    source? c = none := by
  have hword : c.skipSpaces.expect? "from" = none := by
    rw [Option.eq_none_iff_forall_not_mem]
    intro stop hstop
    have hfirst := (Cursor.expect?_eq_some.mp hstop).peek?
    exact hx (Option.some.inj (hpeek.symm.trans hfirst))
  unfold source?
  simp only [hword]
  split <;> rfl

/-- No clause leads over white space to a quote. -/
theorem clauseFrom_quote {before spaces rest : Text} {q : Char} (hspaces : Blank spaces)
    (hq : isQuote q = true) : clauseFrom before (spaces ++ q :: rest) = none := by
  obtain ⟨hspace, hf⟩ := isSpace_of_isQuote hq
  induction spaces generalizing before with
  | nil =>
    have hsource := source?_eq_none (c := ⟨before, q :: rest⟩)
      (congrArg Cursor.peek? (@Cursor.skipSpaces_blank before [] rest q blank_nil hspace)) hf
    simp [clauseFrom_cons, hsource, hq]
  | cons c spaces ih =>
    have hsource := source?_eq_none (c := ⟨before, c :: spaces ++ q :: rest⟩)
      (congrArg Cursor.peek? (Cursor.skipSpaces_blank hspaces hspace)) hf
    have hrest := @ih (c :: before) (List.forall_mem_cons.mp hspaces).2
    rw [List.cons_append] at hsource ⊢
    simp only [clauseFrom_cons, hsource, hrest, Option.map_none, ite_self]

/-- No clause leads over a parenthesis to a quote. -/
theorem clauseFrom_parenthesis {before spaces rest : Text} {q : Char} (hspaces : Blank spaces)
    (hq : isQuote q = true) : clauseFrom before ('(' :: (spaces ++ q :: rest)) = none := by
  have hsource := source?_eq_none (c := ⟨before, '(' :: (spaces ++ q :: rest)⟩)
    (congrArg Cursor.peek? (@Cursor.skipSpaces_blank before [] _ '(' blank_nil (by decide))) (by decide)
  simp only [clauseFrom_cons, hsource, clauseFrom_quote hspaces hq, Option.map_none, ite_self]

/-! ## The three forms -/

/-- Behind the word, white space apart, comes a clause with a source. -/
theorem exists_of_clauseImport? {c stop : Cursor} {found : FoundImport}
    (h : clauseImport? c = some (found, stop)) :
    found.start = c.offset ∧ ∃ word, c.expect? "import" = some word ∧
      clauseFrom word.skipSpaces.before word.skipSpaces.after ≠ none := by
  unfold clauseImport? at h
  split at h
  · cases h
  · simp only [Option.bind_eq_bind, Option.bind_eq_some_iff, Prod.exists] at h
    obtain ⟨inside, hinside, clause, path, next, hclause, he⟩ := h
    obtain ⟨rfl, rfl⟩ := Prod.mk.inj (Option.some.inj he)
    obtain ⟨word, hword, hspaces⟩ := Option.bind_eq_some_iff.mp hinside
    unfold Cursor.spaces? at hspaces
    split at hspaces
    · obtain rfl := Option.some.inj hspaces
      exact ⟨rfl, word, hword, by simp [hclause]⟩
    · cases hspaces

/-- Behind the word, white space apart, comes a quote. -/
theorem exists_of_bareImport? {c stop : Cursor} {found : FoundImport}
    (h : bareImport? c = some (found, stop)) :
    found.start = c.offset ∧ ∃ word quote, c.expect? "import" = some word ∧
      word.skipSpaces.peek? = some quote ∧ isQuote quote = true := by
  unfold bareImport? at h
  split at h
  · cases h
  · simp only [Option.bind_eq_bind, Option.bind_eq_some_iff, Prod.exists] at h
    obtain ⟨word, hword, path, next, hpath, he⟩ := h
    obtain ⟨rfl, rfl⟩ := Prod.mk.inj (Option.some.inj he)
    obtain ⟨quote, hpeek, hquote⟩ := Cursor.exists_of_literal? hpath
    exact ⟨rfl, word, quote, hword, hpeek, isQuote_of_isPathQuote hquote⟩

/-- Behind the word, white space apart, come a parenthesis and a quote. -/
theorem exists_of_dynamicImport? {c stop : Cursor} {found : FoundImport}
    (h : dynamicImport? c = some (found, stop)) :
    found.start = c.offset ∧ ∃ word spaces quote rest, c.expect? "import" = some word ∧
      word.skipSpaces.after = '(' :: (spaces ++ quote :: rest) ∧ Blank spaces ∧
      isQuote quote = true := by
  unfold dynamicImport? at h
  split at h
  · cases h
  · simp only [Option.bind_eq_bind, Option.bind_eq_some_iff, Prod.exists] at h
    obtain ⟨word, hword, inside, hinside, path, next, hpath, _, _, he⟩ := h
    obtain ⟨rfl, rfl⟩ := Prod.mk.inj (Option.some.inj he)
    obtain ⟨quote, hpeek, hquote⟩ := Cursor.exists_of_literal? hpath
    obtain ⟨rest, hrest⟩ := Cursor.exists_of_peek? hpeek
    obtain ⟨spaces, hblank, hspaces⟩ := Cursor.reads_skipSpaces inside
    refine ⟨rfl, word, spaces, quote, rest, hword, ?_, hblank, hquote⟩
    rw [(Cursor.expect?_eq_some.mp hinside).after, hspaces.after, hrest]
    rfl

/-- The searches for imports, one for each form. -/
def forms : List (Cursor → Option (FoundImport × Cursor)) := [clauseImport?, bareImport?, dynamicImport?]

theorem clauseImport?_excludes (c : Cursor) :
    clauseImport? c = none ∨ bareImport? c = none ∧ dynamicImport? c = none := by
  cases hfound : clauseImport? c with
  | none => exact .inl rfl
  | some found =>
    obtain ⟨-, word, hword, hclause⟩ := exists_of_clauseImport? hfound
    refine .inr ⟨Option.eq_none_iff_forall_not_mem.mpr ?_, Option.eq_none_iff_forall_not_mem.mpr ?_⟩
    · intro bare hbare
      obtain ⟨-, word', quote, hword', hpeek, hquote⟩ := exists_of_bareImport? hbare
      obtain rfl := Option.some.inj (hword.symm.trans hword')
      obtain ⟨rest, hrest⟩ := Cursor.exists_of_peek? hpeek
      exact hclause (hrest ▸ @clauseFrom_quote _ [] rest quote blank_nil hquote)
    · intro dynamic hdynamic
      obtain ⟨-, word', spaces, quote, rest, hword', hafter, hspaces, hquote⟩ :=
        exists_of_dynamicImport? hdynamic
      obtain rfl := Option.some.inj (hword.symm.trans hword')
      exact hclause (hafter ▸ clauseFrom_parenthesis hspaces hquote)

theorem bareImport?_excludes (c : Cursor) : bareImport? c = none ∨ dynamicImport? c = none := by
  cases hfound : bareImport? c with
  | none => exact .inl rfl
  | some found =>
    obtain ⟨-, word, quote, hword, hpeek, hquote⟩ := exists_of_bareImport? hfound
    refine .inr (Option.eq_none_iff_forall_not_mem.mpr ?_)
    intro dynamic hdynamic
    obtain ⟨-, word', spaces, inner, rest, hword', hafter, -⟩ := exists_of_dynamicImport? hdynamic
    obtain rfl := Option.some.inj (hword.symm.trans hword')
    rw [Cursor.peek?, hafter] at hpeek
    obtain rfl := Option.some.inj hpeek
    exact absurd hquote (by decide)

/-- No two forms are read at one place. -/
theorem forms_exclusive : forms.Pairwise fun read other => ∀ c, read c = none ∨ other c = none := by
  have hclause := clauseImport?_excludes
  have hbare := bareImport?_excludes
  simp only [forms, List.pairwise_cons, List.forall_mem_cons, List.not_mem_nil]
  exact ⟨⟨fun c => (hclause c).imp_right And.left, fun c => (hclause c).imp_right And.right, nofun⟩,
    ⟨hbare, nofun⟩, nofun, .nil⟩

theorem start_of_mem_forms {read : Cursor → Option (FoundImport × Cursor)} (hread : read ∈ forms)
    {c stop : Cursor} {found : FoundImport} (h : read c = some (found, stop)) :
    found.start = c.offset := by
  simp only [forms, List.mem_cons, List.not_mem_nil, or_false] at hread
  rcases hread with rfl | rfl | rfl
  · exact (exists_of_clauseImport? h).1
  · exact (exists_of_bareImport? h).1
  · exact (exists_of_dynamicImport? h).1

/-! ## The order of imports -/

/-- What the searches find in a script, one search behind the other. -/
def matchesOf (script : Text) : List FoundImport := forms.flatMap (Cursor.collect · script)

theorem findAll_perm (script : Text) : (findAll script).Perm (matchesOf script) := by
  refine (List.mergeSort_perm _ _).trans (.of_eq ?_)
  simp [matchesOf, forms]

/-- Different matches start at different offsets: one search goes on behind a match, and two searches
have no match at one place. -/
theorem pairwise_start_matchesOf (script : Text) :
    (matchesOf script).Pairwise fun a b => a.start ≠ b.start := by
  refine List.pairwise_flatMap.mpr ⟨fun read hread => ?_, forms_exclusive.imp_of_mem ?_⟩
  · have hstart := @start_of_mem_forms read hread
    refine (Cursor.pairwise_collect FoundImport.start (fun c found stop hfound => ?_) script).imp
      Nat.ne_of_lt
    exact ⟨Nat.le_of_eq (hstart hfound).symm, .inl (hstart hfound)⟩
  · intro read other hread hother hexclusive a ha b hb heq
    obtain ⟨c, stop, hc, hfound⟩ := Cursor.mem_collect ha
    obtain ⟨d, stop', hd, hfound'⟩ := Cursor.mem_collect hb
    rw [start_of_mem_forms hread hfound, start_of_mem_forms hother hfound'] at heq
    obtain rfl := Cursor.eq_of_text_of_offset (hc.trans hd.symm) heq
    rcases hexclusive c with hnone | hnone
    · cases hnone.symm.trans hfound
    · cases hnone.symm.trans hfound'

theorem pairwise_start_findAll (script : Text) :
    (findAll script).Pairwise fun a b => a.start < b.start := by
  have hsorted := pairwise_mergeSort_key FoundImport.start (Cursor.collect clauseImport? script ++
    Cursor.collect bareImport? script ++ Cursor.collect dynamicImport? script)
  have hdistinct := (findAll_perm script).symm.pairwise (pairwise_start_matchesOf script) Ne.symm
  exact (hsorted.and hdistinct).imp fun h => Nat.lt_of_le_of_ne h.1 h.2

/-- The imports of a script are the matches of the three searches, none lost and none twice. Their
offsets increase strictly, in the script and in the file, since no place is the start of two forms. -/
theorem offsets_increase (script : Text) :
    (findAll script).Perm (matchesOf script) ∧
      (forms.Pairwise fun read other => ∀ c, read c = none ∨ other c = none) ∧
      (findAll script).Pairwise (fun a b => a.start < b.start) ∧
      ∀ (t : Text) (index : LineIndex) (region : ScriptRegion),
        (Analysis.declarations t index region).imports.Pairwise fun a b => a.offset < b.offset := by
  refine ⟨findAll_perm script, forms_exclusive, pairwise_start_findAll script, ?_⟩
  intro t index region
  refine List.pairwise_map.mpr ((pairwise_start_findAll _).imp fun hlt => ?_)
  exact Nat.add_lt_add_left hlt _

end Import

end ComponentAudit
