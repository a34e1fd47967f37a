import ComponentAudit.Proofs.Usage.Listing

/-! # Variables in markup expressions

Where the name of a variable stands in the markup, it is taken for a use exactly if the last brace in
front of it opens one, or a directive ends there. Uses in scripts never fall on such a place, since no
character of the markup comes from a script. An occurrence behind a brace that closes is missed, however
many are open around it. -/

namespace ComponentAudit

open Analysis

theorem inMarkupExpression_iff {before after : Text} :
    inMarkupExpression ⟨before.reverse, after⟩ = true ↔ InOpenBrace before := by
  refine ⟨?_, fun h => h.inMarkupExpression after⟩
  intro h
  rw [inMarkupExpression, beq_iff_eq, List.find?_eq_some_iff_append] at h
  obtain ⟨-, back, front, hsplit, hback⟩ := h
  refine ⟨front.reverse, back.reverse, ?_, ?_, ?_⟩
  · rw [← List.reverse_inj]
    simpa using hsplit
  · intro hopen
    simpa using hback '{' (List.mem_reverse.mp hopen)
  · intro hclose
    simpa using hback '}' (List.mem_reverse.mp hclose)

theorem afterDirective_iff {before after : Text} :
    afterDirective ⟨before.reverse, after⟩ = true ↔ AfterDirective before := by
  refine ⟨?_, fun h => h.afterDirective after⟩
  intro h
  simp only [afterDirective, List.any_cons, List.any_nil, Bool.or_false, Bool.or_eq_true,
    List.isPrefixOf_iff_prefix, List.reverse_prefix] at h
  exact h

namespace Variable

variable {source path : Text} {options : Options} {found : Variable} {before after : Text}

/-- The markup offsets of a variable are those of its name that a brace or a directive vouches for. -/
theorem mem_markupOffsets_iff (hname : found.name ≠ [])
    (htoken : TokenIn (markupOf source) before found.name after) :
    (Markup.ofRegions source (Regions.ofText source)).sourceIndex before.length ∈
        markupOffsets (documentOf source path options) found ↔
      InOpenBrace before ∨ AfterDirective before := by
  have hplace : Cursor.seek (markupOf source) before.length =
      ⟨before.reverse, found.name ++ after⟩ := by
    rw [Cursor.seek, htoken.split, List.append_assoc, List.take_left, List.drop_left]
  have hread : (inMarkupExpression (Cursor.seek (markupOf source) before.length) ||
      afterDirective (Cursor.seek (markupOf source) before.length)) = true ↔
        InOpenBrace before ∨ AfterDirective before := by
    rw [hplace, Bool.or_eq_true, inMarkupExpression_iff, afterDirective_iff]
  rw [← hread]
  constructor
  · intro h
    obtain ⟨name, -, hname⟩ := List.mem_flatMap.mp h
    obtain ⟨offset, hoffset, hsame⟩ := List.mem_map.mp hname
    obtain rfl := (Markup.strictMono_sourceIndex source).injective hsame
    exact (List.mem_filter.mp hoffset).2
  · intro h
    refine List.mem_flatMap.mpr ⟨found.name, List.mem_cons_self, ?_⟩
    exact List.mem_map_of_mem (List.mem_filter.mpr ⟨htoken.mem_tokens hname, h⟩)

/-- Uses in a script lie inside its element. -/
theorem inside_script_of_mem_scriptOffsets {offset : Nat}
    (h : offset ∈ scriptOffsets (documentOf source path options) (Regions.ofText source).scripts found) :
    ∃ region ∈ (Regions.ofText source).scripts,
      region.span.elementStart ≤ offset ∧ offset < region.span.elementEnd := by
  unfold scriptOffsets at h
  split at h
  · cases h
  · rename_i region howner
    have hregion : region ∈ (Regions.ofText source).scripts := List.mem_of_find?_eq_some howner
    have hspan : region.span ∈ (elements "script" source).spans := by
      rw [← Regions.scripts_span]
      exact List.mem_map.mpr ⟨region, hregion, rfl⟩
    have hordered := ((elementsFrom_ordered "script" 0 0 source).1 _ hspan).1
    have hinside : ∀ name, offset ∈ source.tokensIn name region.span.bodyStart region.span.bodyEnd →
        region.span.bodyStart ≤ offset ∧ offset < region.span.bodyEnd := by
      intro name hmem
      obtain ⟨hoccurs, hbounds⟩ := List.mem_filter.mp (List.mem_filter.mp hmem).1
      have hpos := List.length_pos_iff.mpr (Text.mem_occurrences.mp hoccurs).1
      rw [Bool.and_eq_true, decide_eq_true_eq, decide_eq_true_eq] at hbounds
      omega
    have hbody : region.span.bodyStart ≤ offset ∧ offset < region.span.bodyEnd := by
      rcases List.mem_append.mp h with hplain | hstore
      · exact hinside _ (List.mem_filter.mp hplain).1
      · exact hinside _ hstore
    have htag := hordered.tag
    have hclose := hordered.close
    exact ⟨region, hregion, by omega, by omega⟩

/-- The position of an offset is that of a use exactly if the offset was found. -/
theorem exists_usage_iff (hscan : options.scanMarkup = true) {offset : Nat}
    (hoffset : offset < source.length) :
    (∃ usage ∈ found.findUsages (documentOf source path options) (Regions.ofText source).scripts,
      usage.position = source.positionAt offset) ↔
      offset ∈ scriptOffsets (documentOf source path options) (Regions.ofText source).scripts found ∨
        offset ∈ markupOffsets (documentOf source path options) found := by
  have husages : found.findUsages (documentOf source path options) (Regions.ofText source).scripts =
      (sortOffsets (scriptOffsets (documentOf source path options) (Regions.ofText source).scripts found
        ++ markupOffsets (documentOf source path options) found)).map
          (documentOf source path options).usageAt := by
    rw [findUsages, if_pos]
    exact hscan
  rw [husages]
  constructor
  · rintro ⟨usage, husage, hposition⟩
    obtain ⟨other, hother, rfl⟩ := List.mem_map.mp husage
    rw [mem_sortOffsets, List.mem_append] at hother
    have hinside : other < source.length :=
      hother.elim lt_length_of_mem_scriptOffsets lt_length_of_mem_markupOffsets
    rw [position_usageAt] at hposition
    rwa [← Text.positionAt_inj (Nat.le_of_lt hinside) (Nat.le_of_lt hoffset) hposition]
  · intro h
    exact ⟨_, List.mem_map_of_mem (mem_sortOffsets.mpr (List.mem_append.mpr h)),
      position_usageAt offset⟩

/-- An occurrence of a variable's name in the markup is a use exactly if the last brace in front of it
opens one, or a directive ends there. -/
theorem used_in_markup_iff (hfound : found ∈ (analyze source path options).scriptVariables)
    (hscan : options.scanMarkup = true)
    (htoken : TokenIn (markupOf source) before found.name after) :
    (∃ usage ∈ found.usages, usage.position = source.positionAt
        ((Markup.ofRegions source (Regions.ofText source)).sourceIndex before.length)) ↔
      InOpenBrace before ∨ AfterDirective before := by
  obtain ⟨declared, hdeclared, rfl⟩ := mem_scriptVariables hfound
  have hname : declared.name ≠ [] := (read_variable hdeclared).1.1
  have hin : before.length < (markupOf source).length := by
    have hlength := congrArg List.length htoken.split
    have hpos := List.length_pos_iff.mpr hname
    simp only [List.length_append] at hlength
    omega
  have hscript : (Markup.ofRegions source (Regions.ofText source)).sourceIndex before.length ∉
      scriptOffsets (documentOf source path options) (Regions.ofText source).scripts declared := by
    intro hmem
    obtain ⟨region, hregion, hfrom, hto⟩ := inside_script_of_mem_scriptOffsets hmem
    have houtside := Markup.sourceIndex_outside_script hin hregion
    omega
  exact (exists_usage_iff hscan (Markup.sourceIndex_lt_length hin)).trans
    ((or_iff_right hscript).trans (mem_markupOffsets_iff hname htoken))

theorem used_in_markup_iff_tag :
    let source : Text := "<script>let v = 1;</script><p>\x7bv\x7d</p>"
    ∃ found ∈ (analyze source "App.svelte").scriptVariables, found.name = "v" ∧
      TokenIn (markupOf source) "<p>\x7b" found.name "\x7d</p>" ∧
      ∃ usage ∈ found.usages, usage.position = source.positionAt 31 := by
  intro source
  have hnames : (analyze source "App.svelte").scriptVariables.map (·.name) = ["v".toList] := by
    decide +kernel
  obtain ⟨found, more, hvariables, hname, -⟩ := List.map_eq_cons_iff.mp hnames
  have hfound : found ∈ (analyze source "App.svelte").scriptVariables :=
    hvariables ▸ List.mem_cons_self
  have hmarkup : markupOf source = "<p>\x7bv\x7d</p>" := by decide +kernel
  have hindex : (Markup.ofRegions source (Regions.ofText source)).sourceIndex 4 = 31 := by
    decide +kernel
  have htoken : TokenIn (markupOf source) "<p>\x7b" found.name "\x7d</p>" := by
    rw [hname, hmarkup]
    exact .of_isWholeToken rfl (by decide +kernel)
  have hopen : InOpenBrace "<p>\x7b" := ⟨"<p>", [], rfl, by decide, by decide⟩
  obtain ⟨usage, husage, hposition⟩ := (used_in_markup_iff hfound rfl htoken).mpr (.inl hopen)
  refine ⟨found, hfound, hname, htoken, usage, husage, ?_⟩
  rw [hposition, ← hindex]
  rfl

/-- Behind an object literal the rest of an expression counts as text. -/
theorem unused_behind_literal :
    let source : Text := "<script>let v = 1;</script>\x7bf(\x7b\x7d, v)\x7d"
    (∀ n ≤ (markupOf source).length,
      ((markupOf source).take n).count '}' ≤ ((markupOf source).take n).count '{') ∧
    ("\x7bf(\x7b\x7d, " : Text).count '}' < ("\x7bf(\x7b\x7d, " : Text).count '{' ∧
    TokenIn (markupOf source) "\x7bf(\x7b\x7d, " "v" ")\x7d" ∧
    (analyze source "App.svelte").scriptVariables.map
      (fun found => (found.name, found.usages.isEmpty)) = [("v".toList, true)] := by
  intro source
  have hmarkup : markupOf source = "\x7bf(\x7b\x7d, v)\x7d" := by decide +kernel
  rw [hmarkup]
  exact ⟨by decide, by decide, .of_isWholeToken rfl (by decide +kernel), by decide +kernel⟩

end Variable

end ComponentAudit
