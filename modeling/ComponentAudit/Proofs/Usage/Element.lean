import ComponentAudit.Proofs.Finding.Evidence

/-! # Functions that are handed over

A function whose name is an element of an argument list or an array is handed over. Whether that is
taken for a use depends on what stands right before and right behind the name: of the neighbours that
an element can have, the search for uses has probes for some pairs and none for the others. -/

namespace ComponentAudit.Function

/-- What may stand right before an element. -/
def elementOpenings : List Text := ["(", "[", ", "]

/-- What may stand right behind an element. -/
def elementClosings : List Text := [")", "]", ","]

/-- Between two neighbours, on another line than its own, a function counts as used and is not
reported, whatever the file, the options and the rules. -/
def CountsBetween (opening closing : Text) : Prop :=
  ∀ (source path : Text) (options : Options), ∀ found ∈ (analyze source path options).functions,
    ∀ before after, TokenIn source (before ++ opening) found.name (closing ++ after) →
      (before ++ opening).count '\n' + 1 ≠ found.position.line →
        found.usages ≠ [] ∧ ∀ rules,
          found ∉ (Findings.ofAnalysis rules (analyze source path options)).deadFunctions

/-- A probe around a name is a use, unless it starts on the function's own line. -/
theorem findUsages_ne_nil {found : Function} {document : Document} {before after : Text}
    {probe : Text × Text} (hprobe : probe ∈ probes) (hne : found.name ≠ [])
    (hindex : document.index = LineIndex.ofText document.text)
    (h : TokenIn document.text (before ++ probe.1) found.name (probe.2 ++ after))
    (hline : before.count '\n' + 1 ≠ found.position.line) : found.findUsages document ≠ [] := by
  intro hnone
  have hown := line_of_mem_probeOffsets hnone hindex hprobe (mem_probeOffsets (by simp [hne]) h)
  rw [h.split, List.append_assoc, List.append_assoc, List.take_left] at hown
  exact hline hown

theorem countsBetween_of_mem_probes {opening closing : Text} (hopening : opening ∈ elementOpenings)
    (hprobe : (opening, closing) ∈ probes) : CountsBetween opening closing := by
  intro source path options found hfound before after htoken hline
  have hfeed : ∀ opening ∈ elementOpenings, opening.count '\n' = 0 := by decide
  rw [List.count_append, hfeed opening hopening, Nat.add_zero] at hline
  obtain ⟨declared, hdeclared, rfl⟩ := Analysis.mem_functions hfound
  have hused : declared.findUsages (Analysis.documentOf source path options) ≠ [] :=
    findUsages_ne_nil hprobe (Analysis.read_function hdeclared).1 rfl htoken hline
  refine ⟨hused, fun rules hdead => ?_⟩
  have hreported := (List.mem_filter.mp hdead).2
  simp only [Suppression.reportsFunction, Bool.and_eq_true, List.isEmpty_iff] at hreported
  exact hused hreported.1.1.1.1

/-- A script whose third line hands over the function of its second one. -/
def handingOver (opening closing : Text) : Text :=
  "<script>\nfunction f() \x7b\x7d\ng" ++ opening ++ "f" ++ (closing ++ "\n</script>")

theorem tokenIn_handingOver {opening closing : Text} (hopening : opening ∈ elementOpenings)
    (hclosing : closing ∈ elementClosings) :
    TokenIn (handingOver opening closing) ("<script>\nfunction f() \x7b\x7d\ng" ++ opening) "f"
      (closing ++ "\n</script>") := by
  have hwhole : ∀ opening ∈ elementOpenings, ∀ closing ∈ elementClosings,
      let start := ("<script>\nfunction f() \x7b\x7d\ng" ++ opening : Text).length
      (handingOver opening closing).isWholeToken start (start + 1) = true := by decide +kernel
  exact .of_isWholeToken rfl (hwhole opening hopening closing hclosing)

theorem unused_handingOver : ∀ opening ∈ elementOpenings, ∀ closing ∈ elementClosings,
    (opening, closing) ∉ probes →
      (analyze (handingOver opening closing) "App.svelte").functions.map
        (fun found => (found.name, found.position.line, found.usages.isEmpty)) =
          [("f".toList, 2, true)] := by
  decide +kernel

theorem mem_probes_of_countsBetween {opening closing : Text} (hopening : opening ∈ elementOpenings)
    (hclosing : closing ∈ elementClosings) (h : CountsBetween opening closing) :
    (opening, closing) ∈ probes := by
  by_cases hprobe : (opening, closing) ∈ probes
  · exact hprobe
  · exfalso
    have hunused := unused_handingOver opening hopening closing hclosing hprobe
    obtain ⟨found, more, hfunctions, hfound, -⟩ := List.map_eq_cons_iff.mp hunused
    obtain ⟨hname, hline, husages⟩ : found.name = "f" ∧ found.position.line = 2 ∧ found.usages = [] := by
      simpa using hfound
    have htoken := tokenIn_handingOver hopening hclosing
    rw [← hname] at htoken
    have hother : ("<script>\nfunction f() \x7b\x7d\ng" ++ opening : Text).count '\n' + 1 ≠
        found.position.line := by
      have hlines : ∀ opening ∈ elementOpenings,
          ("<script>\nfunction f() \x7b\x7d\ng" ++ opening : Text).count '\n' + 1 = 3 := by decide
      rw [hlines opening hopening, hline]
      decide
    exact (h _ _ _ found (hfunctions ▸ List.mem_cons_self) _ _ htoken hother).1 husages

/-- Of the neighbours that an element can have, those that are a probe make it a use, and no others
do: an only argument, a first element and an element in the middle are not seen. -/
theorem countsBetween_iff {opening closing : Text} (hopening : opening ∈ elementOpenings)
    (hclosing : closing ∈ elementClosings) :
    CountsBetween opening closing ↔ (opening, closing) ∈ probes :=
  ⟨mem_probes_of_countsBetween hopening hclosing, countsBetween_of_mem_probes hopening⟩

theorem countsBetween_iff_array : CountsBetween "[" "]" ∧ ¬ CountsBetween "(" ")" := by
  constructor
  · exact (countsBetween_iff (by decide) (by decide)).mpr (by decide)
  · intro h
    have hprobe := (countsBetween_iff (by decide) (by decide)).mp h
    exact absurd hprobe (by decide)

/-- A function that is the only argument of a call on another line has no uses and is reported. -/
theorem dead_onlyArgument :
    let source := handingOver "(" ")"
    TokenIn source "<script>\nfunction f() \x7b\x7d\ng(" "f" ")\n</script>" ∧
      (Findings.ofAnalysis {} (analyze source "App.svelte")).deadFunctions.map
        (fun found => (found.name, found.position.line)) = [("f".toList, 2)] := by
  intro source
  have htoken : TokenIn source "<script>\nfunction f() \x7b\x7d\ng(" "f" ")\n</script>" :=
    @tokenIn_handingOver "(" ")" (by decide) (by decide)
  exact ⟨htoken, by decide +kernel⟩

end ComponentAudit.Function
