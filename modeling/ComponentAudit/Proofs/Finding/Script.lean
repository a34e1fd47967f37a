import ComponentAudit.Proofs.Component.Owner
import ComponentAudit.Proofs.Text.Occurrence
import ComponentAudit.Usage.Script

/-! # Evidence for what scripts declare

Where a text itself shows that a declared name is used: a variable is read in its script or in the
markup, a function is called or handed over in braces, a bound name appears outside its import. A
declaration for which no use was found has no such evidence. -/

namespace ComponentAudit

theorem mem_sortOffsets {offsets : List Nat} {p : Nat} : p ∈ sortOffsets offsets ↔ p ∈ offsets := by
  rw [sortOffsets, List.mem_eraseDups, List.mem_mergeSort]

theorem not_mem_of_sortOffsets {offsets : List Nat} (h : sortOffsets offsets = []) (p : Nat) :
    p ∉ offsets := by
  intro hp
  have hmem := mem_sortOffsets.mpr hp
  rw [h] at hmem
  cases hmem

/-! ## Variables -/

/-- The last brace of a text opens one. -/
def InOpenBrace (before : Text) : Prop :=
  ∃ front back, before = front ++ '{' :: back ∧ '{' ∉ back ∧ '}' ∉ back

theorem InOpenBrace.inMarkupExpression {before : Text} (h : InOpenBrace before) (after : Text) :
    inMarkupExpression ⟨before.reverse, after⟩ = true := by
  obtain ⟨front, back, rfl, hopen, hclose⟩ := h
  have hback : back.reverse.find? (fun ch => ch == '{' || ch == '}') = none := by
    rw [List.find?_eq_none]
    intro c hc
    rw [List.mem_reverse] at hc
    have hne : c ≠ '{' := fun he => hopen (he ▸ hc)
    have hne' : c ≠ '}' := fun he => hclose (he ▸ hc)
    simp [hne, hne']
  simp [ComponentAudit.inMarkupExpression, List.find?_append, hback]

/-- A directive that names a variable ends a text. -/
def AfterDirective (before : Text) : Prop :=
  ("bind:" : Text) <:+ before ∨ ("class:" : Text) <:+ before

theorem AfterDirective.afterDirective {before : Text} (h : AfterDirective before) (after : Text) :
    afterDirective ⟨before.reverse, after⟩ = true := by
  simp only [ComponentAudit.afterDirective, List.any_cons, List.any_nil, Bool.or_false,
    Bool.or_eq_true, List.isPrefixOf_iff_prefix, List.reverse_prefix]
  exact h

/-- A script reads a variable: its name stands somewhere else than where it is declared, or with the
mark of a store. -/
def Variable.ReadIn (found : Variable) (source : Text) (region : ScriptRegion) : Prop :=
  ∃ before name after, TokenIn source before name after ∧
    (name = found.name ∧ before.length ≠ found.nameOffset ∨ name = '$' :: found.name) ∧
    region.span.bodyStart ≤ before.length ∧ before.length + name.length ≤ region.span.bodyEnd

/-- The markup reads a variable: its name, or the name with the mark of a store, stands in an
expression or behind a directive. -/
def Variable.ReadInMarkup (found : Variable) (markup : Text) : Prop :=
  ∃ before name after, TokenIn markup before name after ∧
    (name = found.name ∨ name = '$' :: found.name) ∧ (InOpenBrace before ∨ AfterDirective before)

namespace Variable

variable {found : Variable} {document : Document}

theorem ReadIn.mem_scriptOffsets {scripts : List ScriptRegion} {region : ScriptRegion}
    (hname : IsName found.name) (howner : owningScript? scripts found.nameOffset = some region)
    (h : found.ReadIn document.text region) : ∃ p, p ∈ scriptOffsets document scripts found := by
  obtain ⟨before, name, after, htoken, hread, hstart, hstop⟩ := h
  refine ⟨before.length, ?_⟩
  simp only [scriptOffsets, howner]
  rcases hread with ⟨rfl, helse⟩ | rfl
  · refine List.mem_append_left _ (List.mem_filter.mpr ⟨?_, by simpa using helse⟩)
    exact htoken.mem_tokensIn hname.1 hstart hstop
  · exact List.mem_append_right _ (htoken.mem_tokensIn (by simp) hstart hstop)

theorem ReadInMarkup.mem_markupOffsets (hname : IsName found.name)
    (h : found.ReadInMarkup document.markup.text) : ∃ p, p ∈ markupOffsets document found := by
  obtain ⟨before, name, after, htoken, hread, hplace⟩ := h
  have hne : name ≠ [] := by
    rcases hread with rfl | rfl
    · exact hname.1
    · simp
  have hseek : Cursor.seek document.markup.text before.length = ⟨before.reverse, name ++ after⟩ := by
    rw [Cursor.seek, htoken.split, List.append_assoc, List.take_left, List.drop_left]
  refine ⟨document.markup.sourceIndex before.length, List.mem_flatMap.mpr ⟨name, ?_, ?_⟩⟩
  · rcases hread with rfl | rfl <;> simp [readNames]
  · refine List.mem_map_of_mem (List.mem_filter.mpr ⟨htoken.mem_tokens hne, ?_⟩)
    simp only [hseek, Bool.or_eq_true]
    exact hplace.imp (·.inMarkupExpression _) (·.afterDirective _)

/-- A variable without uses is read neither in the script that holds it nor in the markup. -/
theorem not_read_of_findUsages {source : Text} (hname : IsName found.name)
    (h : found.findUsages document (Regions.ofText source).scripts = [])
    (hmarkup : document.options.scanMarkup = true) (hsource : document.text = source) :
    (∀ region ∈ (Regions.ofText source).scripts, region.Holds found.nameOffset →
      ¬ found.ReadIn source region) ∧ ¬ found.ReadInMarkup document.markup.text := by
  have hnone := not_mem_of_sortOffsets (List.map_eq_nil_iff.mp h)
  simp only [hmarkup, if_true, List.mem_append, not_or] at hnone
  constructor
  · intro region hregion hholds hread
    obtain ⟨p, hp⟩ := ReadIn.mem_scriptOffsets hname (owningScript?_of_holds hregion hholds)
      (hsource ▸ hread)
    exact (hnone p).1 hp
  · intro hread
    obtain ⟨p, hp⟩ := hread.mem_markupOffsets hname
    exact (hnone p).2 hp

end Variable

/-! ## Functions and imports -/

/-- A function is called, or handed over in braces, behind `before`. -/
def Function.UsedBehind (found : Function) (source before : Text) : Prop :=
  ∃ after, TokenIn source before found.name after ∧
    (after.head? = some '(' ∨ before.getLast? = some '{' ∧ after.head? = some '}')

namespace Function

variable {found : Function} {source before : Text}

/-- A name between the two texts of a probe is found where the first of them starts. -/
theorem mem_probeOffsets {t name after : Text} {probe : Text × Text}
    (hne : probe.1 ++ name ++ probe.2 ≠ [])
    (h : TokenIn t (before ++ probe.1) name (probe.2 ++ after)) :
    before.length ∈ probeOffsets t name probe := by
  have hsplit : t = before ++ (probe.1 ++ name ++ probe.2) ++ after := by
    rw [h.split]
    simp only [List.append_assoc]
  have hwhole := h.isWholeToken
  rw [List.length_append] at hwhole
  exact List.mem_filter.mpr ⟨Text.mem_occurrences.mpr ⟨hne, before, after, hsplit, rfl⟩, hwhole⟩

/-- A function without uses is between the texts of a probe on its own line only. -/
theorem line_of_mem_probeOffsets {document : Document} {probe : Text × Text} {p : Nat}
    (h : found.findUsages document = []) (hindex : document.index = LineIndex.ofText document.text)
    (hprobe : probe ∈ probes) (hp : p ∈ probeOffsets document.text found.name probe) :
    (document.text.take p).count '\n' + 1 = found.position.line := by
  have hhit := List.mem_flatMap.mpr ⟨probe, hprobe, hp⟩
  have hown := List.filter_eq_nil_iff.mp (List.map_eq_nil_iff.mp h) p
    (mem_sortOffsets.mpr (List.mem_append_left _ hhit))
  rw [hindex, line_position] at hown
  simpa using hown

/-- Where a use is looked for: at the name, or at the brace in front of it. Either way the line is
that of the name, which no line feed parts from its brace. -/
theorem UsedBehind.mem_probeOffsets (h : found.UsedBehind source before) :
    ∃ probe ∈ probes, ∃ p ∈ probeOffsets source found.name probe,
      (source.take p).count '\n' = before.count '\n' := by
  obtain ⟨after, htoken, hplace⟩ := h
  rcases hplace with hcall | ⟨hopen, hclose⟩
  · obtain ⟨rest, rfl⟩ := List.head?_eq_some_iff.mp hcall
    have hprobe : TokenIn source (before ++ []) found.name ("(" ++ rest) := by
      rwa [List.append_nil]
    refine ⟨("", "("), by simp [probes], before.length,
      Function.mem_probeOffsets (by simp) hprobe, ?_⟩
    rw [htoken.split, List.append_assoc, List.take_left]
  · obtain ⟨rest, rfl⟩ := List.head?_eq_some_iff.mp hclose
    obtain ⟨front, rfl⟩ := List.getLast?_eq_some_iff.mp hopen
    refine ⟨("\x7b", "\x7d"), by simp [probes], front.length,
      Function.mem_probeOffsets (by simp) htoken, ?_⟩
    rw [htoken.split, List.append_assoc, List.append_assoc, List.take_left]
    simp

/-- A function without uses is used on its own line only. -/
theorem line_of_findUsages {document : Document} (h : found.findUsages document = [])
    (hsource : document.text = source) (hindex : document.index = LineIndex.ofText source)
    (hused : found.UsedBehind source before) :
    before.count '\n' + 1 = found.position.line := by
  subst hsource
  obtain ⟨probe, hprobe, p, hp, hline⟩ := hused.mem_probeOffsets
  rw [← hline]
  exact line_of_mem_probeOffsets h hindex hprobe hp

end Function

/-- A name without uses stands nowhere outside the import that binds it. -/
theorem Import.within_of_findUsages {found : Import} {document : Document} {before symbol after : Text}
    (h : found.findUsages document = []) (hsymbol : symbol ∈ found.symbols) (hname : IsName symbol)
    (htoken : TokenIn document.text before symbol after) :
    found.offset ≤ before.length ∧ before.length < found.endOffset := by
  have hnone := not_mem_of_sortOffsets (List.map_eq_nil_iff.mp h) before.length
  by_cases hin : found.offset ≤ before.length ∧ before.length < found.endOffset
  · exact hin
  · refine absurd (List.mem_flatMap.mpr ⟨symbol, hsymbol, ?_⟩) hnone
    refine List.mem_filter.mpr ⟨htoken.mem_tokens hname.1, ?_⟩
    simp only [Bool.not_eq_true', Bool.and_eq_false_iff, decide_eq_false_iff_not]
    omega

end ComponentAudit
