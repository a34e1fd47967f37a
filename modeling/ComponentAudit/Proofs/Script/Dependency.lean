import ComponentAudit.Component.Analysis
import ComponentAudit.Proofs.Script.Export
import ComponentAudit.Proofs.Usage.Order

/-! # What a reactive variable depends on

The names that a right-hand side mentions are sorted by their first mentions. A name is made of
identifier characters, so as an identifier of its own it is the whole run of them at its place, and no
two names share one (`MentionedAt.unique`). So the order of the names looked for has no part in the
result (`mentionedNames_of_same`), and each dependency is first mentioned before the next one. -/

namespace ComponentAudit

/-! ## First mentions -/

/-- A name stands in a text at an offset as an identifier of its own. -/
def MentionedAt (t name : Text) (offset : Nat) : Prop :=
  ∃ before after, TokenIn t before name after ∧ before.length = offset

/-- The first offset at which a name stands in a text as an identifier of its own. -/
structure FirstMention (t name : Text) (offset : Nat) : Prop where
  mentioned : MentionedAt t name offset
  le : ∀ p, MentionedAt t name p → offset ≤ p

variable {t name other : Text} {p q : Nat}

/-- The identifier at a place is the whole run of identifier characters, so it has one name. -/
theorem MentionedAt.unique (h : MentionedAt t name p) (h' : MentionedAt t other p) (hname : IsName name)
    (hother : IsName other) : name = other := by
  obtain ⟨before, after, htoken, rfl⟩ := h
  obtain ⟨before', after', htoken', hlength⟩ := h'
  have hsplit := htoken.split.symm.trans htoken'.split
  rw [List.append_assoc, List.append_assoc] at hsplit
  have hrun := (List.append_inj hsplit hlength.symm).2
  calc name = (name ++ after).takeWhile isIdentChar :=
        (takeWhile_append_of_stop hname.2 htoken.right).symm
    _ = (other ++ after').takeWhile isIdentChar := by rw [hrun]
    _ = other := takeWhile_append_of_stop hother.2 htoken'.right

theorem MentionedAt.exists_firstMention (h : MentionedAt t name p) : ∃ first, FirstMention t name first := by
  classical
  exact ⟨Nat.find ⟨p, h⟩, Nat.find_spec ⟨p, h⟩, fun q hq => Nat.find_min' ⟨p, h⟩ hq⟩

theorem FirstMention.unique (h : FirstMention t name p) (h' : FirstMention t name q) : p = q :=
  Nat.le_antisymm (h.le q h'.mentioned) (h'.le p h.mentioned)

namespace Text

theorem mem_tokens_iff (hname : name ≠ []) : p ∈ t.tokens name ↔ MentionedAt t name p := by
  constructor
  · intro h
    obtain ⟨hplace, hwhole⟩ := List.mem_filter.mp h
    obtain ⟨-, before, after, hsplit, rfl⟩ := mem_occurrences.mp (List.mem_filter.mp hplace).1
    exact ⟨before, after, TokenIn.of_isWholeToken hsplit hwhole, rfl⟩
  · rintro ⟨before, after, htoken, rfl⟩
    exact htoken.mem_tokens hname

theorem head?_tokens (hname : name ≠ []) : (t.tokens name).head? = some p ↔ FirstMention t name p := by
  have hmem : ∀ q, q ∈ t.tokens name ↔ MentionedAt t name q := fun q => mem_tokens_iff hname
  have hsorted : (t.tokens name).Pairwise (· < ·) := pairwise_tokensIn t name 0 t.length
  cases htokens : t.tokens name with
  | nil =>
    rw [htokens] at hmem
    simp only [List.head?_nil, reduceCtorEq, false_iff]
    exact fun h => (List.not_mem_nil ((hmem p).mpr h.mentioned)).elim
  | cons first later =>
    rw [htokens] at hmem hsorted
    have hfirst : FirstMention t name first := by
      refine ⟨(hmem first).mp List.mem_cons_self, fun q hq => ?_⟩
      rcases List.mem_cons.mp ((hmem q).mpr hq) with rfl | hlater
      · exact Nat.le_refl _
      · exact Nat.le_of_lt (List.rel_of_pairwise_cons hsorted hlater)
    rw [List.head?_cons, Option.some.injEq]
    constructor
    · rintro rfl
      exact hfirst
    · exact hfirst.unique

end Text

/-! ## The names in order -/

/-- The names of a text among some names, without one of their own, in the order in which the text first
mentions them. -/
structure InOrderOfMention (t : Text) (names : List Text) (own : Text) (found : List Text) : Prop where
  mem : ∀ name, name ∈ found ↔ name ∈ names ∧ name ≠ own ∧ ∃ p, MentionedAt t name p
  nodup : found.Nodup
  increasing : found.Pairwise fun name next =>
    ∀ p q, FirstMention t name p → FirstMention t next q → p < q

namespace Variable

/-- A name with its first mention. -/
def firstMention? (own rightSide name : Text) : Option (Text × Nat) :=
  if name == own then none
  else (Text.tokens rightSide name).head?.map fun first => (name, first)

theorem firstMention?_eq_some {own rightSide : Text} {found : Text × Nat} (hname : name ≠ []) :
    firstMention? own rightSide name = some found ↔
      name ≠ own ∧ ∃ first, FirstMention rightSide name first ∧ found = (name, first) := by
  unfold firstMention?
  split
  · rename_i heq
    simp [eq_of_beq heq]
  · rename_i hne
    rw [Option.map_eq_some_iff]
    simp only [Text.head?_tokens hname, @eq_comm _ found]
    exact (and_iff_right (by simpa using hne)).symm

/-- The names with their first mentions. -/
def firstMentions (names : List Text) (own rightSide : Text) : List (Text × Nat) :=
  names.filterMap (firstMention? own rightSide)

/-- The names with their first mentions, in order of the mentions. -/
def sortedMentions (names : List Text) (own rightSide : Text) : List (Text × Nat) :=
  (firstMentions names own rightSide).mergeSort fun a b => a.2 ≤ b.2

theorem mentionedNames_eq (names : List Text) (own rightSide : Text) :
    mentionedNames names own rightSide = (sortedMentions names own rightSide).map (·.1) := rfl

theorem sortedMentions_perm (names : List Text) (own rightSide : Text) :
    (sortedMentions names own rightSide).Perm (firstMentions names own rightSide) :=
  List.mergeSort_perm _ _

section Names

variable {names others : List Text} {own rightSide : Text} (hnames : ∀ name ∈ names, IsName name)
include hnames

theorem mem_firstMentions {found : Text × Nat} : found ∈ firstMentions names own rightSide ↔
    found.1 ∈ names ∧ found.1 ≠ own ∧ FirstMention rightSide found.1 found.2 := by
  rw [firstMentions, List.mem_filterMap]
  constructor
  · rintro ⟨name, hmem, hfound⟩
    obtain ⟨hne, first, hfirst, rfl⟩ := (firstMention?_eq_some (hnames _ hmem).1).mp hfound
    exact ⟨hmem, hne, hfirst⟩
  · rintro ⟨hmem, hne, hfirst⟩
    exact ⟨_, hmem, (firstMention?_eq_some (hnames _ hmem).1).mpr ⟨hne, _, hfirst, rfl⟩⟩

/-- No two of the names share a first mention. -/
theorem eq_of_mem_firstMentions {a b : Text × Nat} (ha : a ∈ firstMentions names own rightSide)
    (hb : b ∈ firstMentions names own rightSide) (h : a.2 = b.2) : a = b := by
  obtain ⟨hmem, -, hfirst⟩ := (mem_firstMentions hnames).mp ha
  obtain ⟨hmem', -, hfirst'⟩ := (mem_firstMentions hnames).mp hb
  rw [h] at hfirst
  exact Prod.ext (hfirst.mentioned.unique hfirst'.mentioned (hnames _ hmem) (hnames _ hmem')) h

/-- The names stay different, each with a mention of its own. -/
theorem nodup_sortedMentions (hnodup : names.Nodup) :
    ((sortedMentions names own rightSide).map (·.1)).Nodup := by
  refine ((sortedMentions_perm names own rightSide).map _).nodup_iff.mpr (List.pairwise_map.mpr ?_)
  refine List.Pairwise.filterMap _ ?_ (List.Pairwise.and_mem.mp hnodup)
  rintro name other ⟨hmem, hother, hne⟩ found hfound next hnext
  obtain ⟨-, first, -, rfl⟩ := (firstMention?_eq_some (hnames _ hmem).1).mp hfound
  obtain ⟨-, later, -, rfl⟩ := (firstMention?_eq_some (hnames _ hother).1).mp hnext
  exact hne

theorem pairwise_sortedMentions (hnodup : names.Nodup) :
    (sortedMentions names own rightSide).Pairwise fun a b => a.2 < b.2 := by
  have hsorted := pairwise_mergeSort_key Prod.snd (firstMentions names own rightSide)
  have honce := List.pairwise_map.mp (@nodup_sortedMentions names own rightSide hnames hnodup)
  refine (hsorted.and honce).imp_of_mem ?_
  rintro a b ha hb ⟨hle, hne⟩
  refine Nat.lt_of_le_of_ne hle fun heq => hne (congrArg _ ?_)
  exact eq_of_mem_firstMentions hnames (List.mem_mergeSort.mp ha) (List.mem_mergeSort.mp hb) heq

/-- The result does not depend on the order in which the names are looked for. -/
theorem mentionedNames_of_same (hnodup : names.Nodup) (hothers : others.Nodup)
    (hsame : ∀ name, name ∈ others ↔ name ∈ names) :
    mentionedNames others own rightSide = mentionedNames names own rightSide := by
  have hmentions : (firstMentions others own rightSide).Perm (firstMentions names own rightSide) :=
    ((List.perm_ext_iff_of_nodup hothers hnodup).mpr hsame).filterMap _
  have hperm : (sortedMentions others own rightSide).Perm (sortedMentions names own rightSide) :=
    ((sortedMentions_perm _ _ _).trans hmentions).trans (sortedMentions_perm _ _ _).symm
  rw [mentionedNames_eq, mentionedNames_eq]
  refine congrArg _ (hperm.eq_of_pairwise ?_ (pairwise_mergeSort_key Prod.snd _)
    (pairwise_mergeSort_key Prod.snd _))
  intro a b ha hb hab hba
  refine eq_of_mem_firstMentions hnames ?_ (List.mem_mergeSort.mp hb) (Nat.le_antisymm hab hba)
  exact hmentions.mem_iff.mp (List.mem_mergeSort.mp ha)

theorem inOrderOfMention_mentionedNames (hnodup : names.Nodup) :
    InOrderOfMention rightSide names own (mentionedNames names own rightSide) := by
  have hmem : ∀ {found}, found ∈ sortedMentions names own rightSide ↔
      found.1 ∈ names ∧ found.1 ≠ own ∧ FirstMention rightSide found.1 found.2 := by
    intro found
    rw [(sortedMentions_perm _ _ _).mem_iff]
    exact mem_firstMentions hnames
  refine ⟨fun name => ?_, nodup_sortedMentions hnames hnodup, ?_⟩
  · rw [mentionedNames_eq, List.mem_map]
    constructor
    · rintro ⟨found, hfound, rfl⟩
      obtain ⟨hname, hne, hfirst⟩ := hmem.mp hfound
      exact ⟨hname, hne, found.2, hfirst.mentioned⟩
    · rintro ⟨hname, hne, p, hp⟩
      obtain ⟨first, hfirst⟩ := hp.exists_firstMention
      exact ⟨(name, first), hmem.mpr ⟨hname, hne, hfirst⟩, rfl⟩
  · refine List.pairwise_map.mpr ((pairwise_sortedMentions hnames hnodup).imp_of_mem ?_)
    intro a b ha hb hlt p q hp hq
    rw [hp.unique (hmem.mp ha).2.2, hq.unique (hmem.mp hb).2.2]
    exact hlt

end Names

/-! ## The right-hand side -/

/-- A name at an offset is assigned a right-hand side: white space and `=` stand between the two, and
the right-hand side lasts to the end of the statement. -/
def AssignedAt (script name : Text) (offset : Nat) (rightSide : Text) : Prop :=
  ∃ front spaces rest, script = front ++ name ++ spaces ++ '=' :: (rightSide ++ rest) ∧
    front.length = offset ∧ Blank spaces ∧
    Statement.stop ⟨(front ++ name ++ spaces ++ ['=']).reverse, rightSide ++ rest⟩ =
      ⟨(front ++ name ++ spaces ++ '=' :: rightSide).reverse, rest⟩

theorem isIdentChar_equals : isIdentChar '=' = false := by decide +kernel

/-- The first `=` behind a name and white space is the one that assigns it. -/
theorem assignedAt_rightHandSide {front name spaces rest : Text} (hname : IsName name)
    (hspaces : Blank spaces) :
    AssignedAt (front ++ name ++ spaces ++ '=' :: rest) name front.length
      (rightHandSide (front ++ name ++ spaces ++ '=' :: rest) front.length) := by
  let start : Cursor := ⟨(front ++ name ++ spaces ++ ['=']).reverse, rest⟩
  have hseek : Cursor.seek (front ++ name ++ spaces ++ '=' :: rest) front.length =
      ⟨front.reverse, (name ++ spaces) ++ '=' :: rest⟩ := by
    simp [Cursor.seek, List.append_assoc]
  have hplain : ∀ c ∈ name ++ spaces, (c != '=') = true := by
    intro c hc
    rw [bne_iff_ne]
    rintro rfl
    rcases List.mem_append.mp hc with hc | hc
    · cases isIdentChar_equals.symm.trans (hname.2 _ hc)
    · exact hspaces.not_mem (by decide) hc
  have hstart : ((Cursor.seek (front ++ name ++ spaces ++ '=' :: rest) front.length).skipWhile
      (· != '=')).advance 1 = start := by
    rw [hseek, Cursor.skipWhile_of_reads (Cursor.reads_append _ _ _) hplain (by simp [Cursor.peek?])]
    simp [Cursor.advance, start]
  obtain ⟨read, hread⟩ := Statement.leads_stop start
  have hrest : rest = read ++ (Statement.stop start).after := hread.after
  have hright : rightHandSide (front ++ name ++ spaces ++ '=' :: rest) front.length = read := by
    rw [rightHandSide, hstart, hread.after]
    simp
  refine ⟨front, spaces, (Statement.stop start).after, ?_, rfl, hspaces, ?_⟩
  · rw [hright, ← hrest]
  · rw [hright, ← hrest]
    calc Statement.stop start = ⟨(Statement.stop start).before, (Statement.stop start).after⟩ := rfl
      _ = ⟨(front ++ name ++ spaces ++ '=' :: read).reverse, (Statement.stop start).after⟩ := by
        rw [hread.before]
        simp [start]

/-- A reactive variable is read at an assignment. -/
theorem assignedAt_reactive? {c stop : Cursor} {found : FoundVariable}
    (h : reactive? c = some (found, stop)) :
    found.kind = .reactive ∧
      AssignedAt c.text found.name found.nameOffset (rightHandSide c.text found.nameOffset) := by
  obtain ⟨label, behind, hlabel, hname, hequals, hfound⟩ := exists_of_reactive? h
  have htext : label.skipSpaces.text = c.text := by
    rw [Cursor.text_skipSpaces, Cursor.text_expect? hlabel, Cursor.text_skipWhile]
  obtain ⟨hreads, -⟩ := Cursor.name?_eq_some.mp hname
  obtain ⟨spaces, hblank, hspaces⟩ := Cursor.reads_skipSpaces behind
  have hall := (hreads.trans hspaces).trans (Cursor.expect?_eq_some.mp hequals)
  have hscript : c.text =
      label.skipSpaces.before.reverse ++ found.name ++ spaces ++ '=' :: stop.after := by
    rw [← htext, Cursor.text, hall.after]
    simp
  have hassigned := @assignedAt_rightHandSide label.skipSpaces.before.reverse found.name spaces
    stop.after (Cursor.identifier?_eq_some.mp hname).2.isName hblank
  have hoffset : found.nameOffset = label.skipSpaces.before.length :=
    congrArg FoundVariable.nameOffset hfound
  rw [← hscript, List.length_reverse, ← hoffset] at hassigned
  exact ⟨congrArg FoundVariable.kind hfound, hassigned⟩

/-- What is found under the kind of a reactive variable was found by the search for them. -/
theorem mem_reactive_of_mem_findAll {script : Text} {offsets : List Nat} {found : FoundVariable}
    (h : found ∈ findAll script offsets) (hkind : found.kind = .reactive) :
    found ∈ Cursor.collect reactive? script := by
  have hmem := (List.mem_filter.mp (mem_of_mem_keepFirstFrom h)).1
  simp only [List.mem_append] at hmem
  rcases hmem with ((hprop | hpattern) | hplain) | hreactive
  · obtain ⟨c, stop, -, hr⟩ := Cursor.mem_collect hprop
    obtain ⟨behind, place, -, -, -, hfound⟩ := exists_of_exportedProp? hr
    cases (congrArg FoundVariable.kind hfound).symm.trans hkind
  · obtain ⟨c, stop, statement, brace, size, b, -, -, -, -, rfl⟩ := exists_of_mem_patternProps hpattern
    cases hkind
  · obtain ⟨c, stop, place, kind, rest, b, -, hr, -, rfl⟩ := exists_of_mem_declared hplain
    obtain ⟨-, word, hword, -⟩ := exists_of_declaration? hr
    obtain rfl : kind = .reactive := hkind
    exact absurd hword (by simp [declarationKeywords])
  · exact hreactive

theorem isName_of_mem_findAll {script : Text} {offsets : List Nat} :
    ∀ name ∈ (findAll script offsets).map FoundVariable.name, IsName name := by
  intro name hname
  obtain ⟨found, hfound, rfl⟩ := List.mem_map.mp hname
  exact (namedAt_findAll hfound).1

theorem nodup_name_findAll (script : Text) (offsets : List Nat) :
    ((findAll script offsets).map FoundVariable.name).Nodup :=
  (nodup_keepFirstFrom FoundVariable.name [] _).2

/-- A reactive variable stands at an assignment. It depends on the declared names that its right-hand
side mentions, apart from its own, in the order of their first mentions: they come one behind another,
since no two of them are mentioned at one place, and in whatever order the declared names are looked
for, the result is the same. -/
theorem dependencies_wellDefined {t : Text} {index : LineIndex} {region : ScriptRegion} {v : Variable}
    (hmem : v ∈ (Analysis.declarations t index region).scriptVariables) (hkind : v.kind = .reactive) :
    let script := Comment.maskScript (region.span.body t)
    let declared := (Analysis.declarations t index region).scriptVariables.map Variable.name
    ∃ offset rightSide, v.nameOffset = region.span.bodyStart + offset ∧
      AssignedAt script v.name offset rightSide ∧
      (∀ names : List Text, names.Nodup → (∀ name, name ∈ names ↔ name ∈ declared) →
        mentionedNames names v.name rightSide = v.dependencies) ∧
      InOrderOfMention rightSide declared v.name v.dependencies ∧
      ∀ name ∈ declared, ∀ other ∈ declared, ∀ p, MentionedAt rightSide name p →
        MentionedAt rightSide other p → name = other := by
  intro script declared
  let offsets := (Function.boundFunctions script).map (·.offset)
  have hdeclared : declared = (findAll script offsets).map FoundVariable.name := List.map_map
  have hnames : ∀ name ∈ declared, IsName name := hdeclared ▸ isName_of_mem_findAll
  have hnodup : declared.Nodup := hdeclared ▸ nodup_name_findAll script offsets
  obtain ⟨found, hfound, rfl⟩ := List.mem_map.mp hmem
  obtain ⟨c, stop, hc, hr⟩ := Cursor.mem_collect (mem_reactive_of_mem_findAll hfound hkind)
  have hassigned := (assignedAt_reactive? hr).2
  rw [hc] at hassigned
  have hdependencies : (if found.kind == .reactive then
      mentionedNames ((findAll script offsets).map FoundVariable.name) found.name
        (rightHandSide script found.nameOffset) else []) =
      mentionedNames declared found.name (rightHandSide script found.nameOffset) := by
    rw [hdeclared, if_pos (beq_iff_eq.mpr hkind)]
  refine ⟨found.nameOffset, rightHandSide script found.nameOffset, rfl, hassigned, ?_, ?_, ?_⟩
  · intro names hother hsame
    exact (mentionedNames_of_same hnames hnodup hother hsame).trans hdependencies.symm
  · exact hdependencies ▸ inOrderOfMention_mentionedNames hnames hnodup
  · intro name hname other hother p hp hp'
    exact hp.unique hp' (hnames name hname) (hnames other hother)

/-- A prop and a name of a pattern, the latter outside ASCII, in a right-hand side that mentions its own
variable too. -/
theorem dependencies_wellDefined_sum :
    let source : Text := "<script>export let a; let \x7bé\x7d = p;\n$: sum = é * a + sum;</script>"
    let region : ScriptRegion := ⟨⟨0, 8, 56, 65⟩, none, false, []⟩
    let found := (Analysis.declarations source (LineIndex.ofText source) region).scriptVariables
    found.map (·.name) = ["a".toList, "é".toList, "sum".toList] ∧
      ∃ v ∈ found, v.name = "sum" ∧ v.kind = .reactive ∧ ∃ rightSide,
        AssignedAt (Comment.maskScript (region.span.body source)) "sum" 30 rightSide ∧
        mentionedNames ["sum", "é", "a"] "sum" rightSide = v.dependencies ∧
        InOrderOfMention rightSide ["a", "é", "sum"] "sum" v.dependencies := by
  intro source region found
  have hnames : found.map (·.name) = ["a".toList, "é".toList, "sum".toList] := by decide +kernel
  have hlast : found.getLast?.map (fun v => (v.name, v.kind, v.nameOffset)) =
      some ("sum".toList, .reactive, 38) := by decide +kernel
  obtain ⟨v, hv, he⟩ := Option.map_eq_some_iff.mp hlast
  simp only [Prod.mk.injEq] at he
  obtain ⟨hname, hkind, hoffset⟩ := he
  have hmem : v ∈ found := List.mem_of_getLast? hv
  obtain ⟨offset, rightSide, hplace, hassigned, hsame, horder, -⟩ := dependencies_wellDefined hmem hkind
  obtain rfl : offset = 30 := by
    have hbody : region.span.bodyStart = 8 := rfl
    omega
  have hsum : ∀ name : Text, name ∈ [("sum" : Text), "é", "a"] ↔ name ∈ found.map (·.name) := by
    intro name
    rw [hnames]
    exact (List.reverse_perm [("a" : Text), "é", "sum"]).mem_iff
  have hmentioned := hsame [("sum" : Text), "é", "a"] (by decide) hsum
  rw [hname] at hassigned hmentioned
  rw [hname, hnames] at horder
  exact ⟨hnames, v, hmem, hname, hkind, rightSide, hassigned, hmentioned, horder⟩

end Variable

end ComponentAudit
