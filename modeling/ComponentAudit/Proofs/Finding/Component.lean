import ComponentAudit.Proofs.Text.Reading
import ComponentAudit.Usage.Component

/-! # Evidence for components

Where a markup itself shows that a component is used: a tag bears its name, or a `this` attribute
holds it. The searches collect all of these. A tag's name holds no `<`, so no tag reaches over
another. The target of one `this` may hold another `this` inside its name, but no equals sign follows
that one before the closing brace. -/

namespace ComponentAudit.ComponentUsage

/-- Characters of a component's tag. -/
def isTagChar (c : Char) : Bool := isAsciiLetter c || isAsciiDigit c || c == '_'

/-- A name opens with a capital and goes on with characters of one kind. -/
def Capitalised (p : Char → Bool) (name : Text) : Prop :=
  ∃ first more, name = first :: more ∧ isAsciiCapital first = true ∧ ∀ x ∈ more, p x = true

/-! ## Tags -/

theorem tag?_eq_some {c stop : Cursor} {offset : Nat} {name rest : Text} :
    tag? c = some ((offset, name, rest), stop) ↔
      c.Reads ('<' :: name) stop ∧ Capitalised isTagChar name ∧
        (∀ x, stop.peek? = some x → isTagChar x = false) ∧ offset = c.offset ∧ rest = stop.after := by
  simp only [tag?, Option.bind_eq_bind, Option.bind_eq_some_iff, Prod.exists, Option.some.injEq,
    Prod.mk.injEq]
  constructor
  · rintro ⟨opened, hopened, read, next, hname, ⟨rfl, rfl, rfl⟩, rfl⟩
    obtain ⟨hreads, hshape, hstop⟩ := Cursor.name?_eq_some.mp hname
    exact ⟨(Cursor.expect?_eq_some.mp hopened).trans hreads, hshape, hstop, rfl, rfl⟩
  · rintro ⟨hreads, hshape, hstop, rfl, rfl⟩
    obtain ⟨opened, hopened, hname⟩ := Cursor.Reads.split (r := ['<']) hreads
    exact ⟨opened, Cursor.expect?_eq_some.mpr hopened, name, stop,
      Cursor.name?_eq_some.mpr ⟨hname, hshape, hstop⟩, ⟨rfl, rfl, rfl⟩, rfl⟩

/-- A markup holds a tag of a name, and a `>` behind it. -/
def TagIn (markup name : Text) : Prop :=
  ∃ before after, markup = before ++ ('<' :: name ++ after) ∧ (∀ c ∈ name, isTagChar c = true) ∧
    (∀ c, after.head? = some c → isTagChar c = false) ∧ '>' ∈ after

theorem TagIn.mem_tags {markup : Text} {first : Char} {more : Text} (h : TagIn markup (first :: more))
    (hfirst : isAsciiCapital first = true) :
    ∃ offset rest, (offset, first :: more, rest) ∈ Cursor.collect tag? markup ∧ '>' ∈ rest := by
  obtain ⟨before, after, rfl, hname, hend, hclosed⟩ := h
  refine ⟨before.length, after, ?_, hclosed⟩
  let place : Cursor := ⟨before.reverse, '<' :: first :: more ++ after⟩
  have hplace : place.text = before ++ ('<' :: first :: more ++ after) := by
    simp [place, Cursor.text]
  have hmatch : tag? place = some ((before.length, first :: more, after), _) :=
    tag?_eq_some.mpr ⟨Cursor.reads_append before.reverse ('<' :: first :: more) after,
      ⟨first, more, rfl, hfirst, fun x hx => hname x (List.mem_cons_of_mem first hx)⟩, hend,
      by simp [place, Cursor.offset], rfl⟩
  rw [← hplace]
  refine Cursor.mem_collect_of_clear hmatch (by simp [place]) fun c found stop htext hfound hlt => ?_
  obtain ⟨offset, name, rest⟩ := found
  obtain ⟨hreads, ⟨head, tail, hshape, hcapital, htail⟩, -⟩ := tag?_eq_some.mp hfound
  refine hreads.clear htext hlt (x := '<') rfl ?_
  rw [List.tail_cons, hshape]
  intro hlt
  rcases List.mem_cons.mp hlt with rfl | hlt
  · exact absurd hcapital (by decide)
  · exact absurd (htail '<' hlt) (by decide)

/-! ## Targets -/

/-- A `this` attribute with a name in braces, and the white space inside it. -/
def targetText (s₁ s₂ s₃ name s₄ : Text) : Text :=
  "this" ++ s₁ ++ "=" ++ (s₂ ++ "\x7b" ++ s₃ ++ name ++ s₄ ++ "\x7d")

theorem isSpace_of_capital {c : Char} (h : isAsciiCapital c = true) : isSpace c = false := by
  simp only [isAsciiCapital, Bool.and_eq_true, decide_eq_true_eq] at h
  simp only [isSpace, Bool.or_eq_false_iff, Bool.and_eq_false_iff, decide_eq_false_iff_not, beq_eq_false_iff_ne]
  omega

/-- What a match of a target passes over. -/
theorem reads_of_target? {c stop : Cursor} {found : Nat × Text} (h : target? c = some (found, stop)) :
    ∃ s₁ s₂ s₃ s₄, Blank s₁ ∧ Blank s₂ ∧ Blank s₃ ∧ Blank s₄ ∧ Capitalised isIdentChar found.2 ∧
      c.Reads (targetText s₁ s₂ s₃ found.2 s₄) stop := by
  unfold target? at h
  split at h
  · cases h
  · simp only [Option.bind_eq_bind, Option.bind_eq_some_iff, Prod.exists] at h
    obtain ⟨word, hword, assigned, hassigned, brace, hbrace, name, named, hname, close, hclose, he⟩ := h
    obtain ⟨rfl, rfl⟩ := Prod.mk.inj (Option.some.inj he)
    obtain ⟨s₁, h₁, hs₁⟩ := Cursor.reads_skipSpaces word
    obtain ⟨s₂, h₂, hs₂⟩ := Cursor.reads_skipSpaces assigned
    obtain ⟨s₃, h₃, hs₃⟩ := Cursor.reads_skipSpaces brace
    obtain ⟨s₄, h₄, hs₄⟩ := Cursor.reads_skipSpaces named
    obtain ⟨hreads, hshape, -⟩ := Cursor.name?_eq_some.mp hname
    refine ⟨s₁, s₂, s₃, s₄, h₁, h₂, h₃, h₄, hshape, ?_⟩
    have hfront := ((Cursor.expect?_eq_some.mp hword).trans hs₁).trans
      (Cursor.expect?_eq_some.mp hassigned)
    have hinside := (hs₂.trans (Cursor.expect?_eq_some.mp hbrace)).trans hs₃
    exact hfront.trans (((hinside.trans hreads).trans hs₄).trans (Cursor.expect?_eq_some.mp hclose))

/-- A target in a text is matched where it stands. -/
theorem target?_of_reads {c stop : Cursor} {s₁ s₂ s₃ s₄ name : Text}
    (hfresh : ∀ x, c.prev? = some x → isWordChar x = false) (h₁ : Blank s₁) (h₂ : Blank s₂)
    (h₃ : Blank s₃) (h₄ : Blank s₄) (hname : Capitalised isIdentChar name)
    (h : c.Reads (targetText s₁ s₂ s₃ name s₄) stop) :
    ∃ offset, target? c = some ((offset, name), stop) := by
  obtain ⟨assigned, hfront, hback⟩ := h.split
  obtain ⟨equals, hfront, hassigned⟩ := hfront.split
  obtain ⟨word, hword, hs₁⟩ := hfront.split
  obtain ⟨close, hback, hclose⟩ := hback.split
  obtain ⟨named, hback, hs₄⟩ := hback.split
  obtain ⟨place, hback, hreads⟩ := hback.split
  obtain ⟨brace, hback, hs₃⟩ := hback.split
  obtain ⟨opening, hs₂, hbrace⟩ := hback.split
  obtain ⟨first, more, rfl, hcapital, hmore⟩ := hname
  have hskip₁ := Cursor.skipSpaces_of_reads hs₁ h₁ hassigned (by decide)
  have hskip₂ := Cursor.skipSpaces_of_reads hs₂ h₂ hbrace (by decide)
  have hskip₃ := Cursor.skipSpaces_of_reads hs₃ h₃ hreads (isSpace_of_capital hcapital)
  have hskip₄ := Cursor.skipSpaces_of_reads hs₄ h₄ hclose (by decide)
  have hstop : ∀ x, named.peek? = some x → isIdentChar x = false := by
    intro x hx
    have hend := hs₄.trans hclose
    cases s₄ with
    | nil =>
      rw [hend.peek?] at hx
      rw [← Option.some.inj hx]
      decide
    | cons y s₄ =>
      rw [hend.peek?] at hx
      rw [← Option.some.inj hx]
      exact isIdentChar_of_isSpace (h₄ y List.mem_cons_self)
  have hprev : c.prev?.any isWordChar = false := by
    cases hp : c.prev? with
    | none => rfl
    | some x => exact hfresh x hp
  refine ⟨place.offset, ?_⟩
  simp only [target?, hprev, Bool.false_eq_true, if_false, Option.bind_eq_bind, Option.bind_some,
    Cursor.expect?_eq_some.mpr hword, hskip₁, Cursor.expect?_eq_some.mpr hassigned, hskip₂,
    Cursor.expect?_eq_some.mpr hbrace, hskip₃,
    Cursor.name?_eq_some.mpr ⟨hreads, ⟨first, more, rfl, hcapital, hmore⟩, hstop⟩, hskip₄,
    Cursor.expect?_eq_some.mpr hclose]

/-- A markup holds a `this` attribute for a name, at the start of a word. -/
def TargetIn (markup name : Text) : Prop :=
  ∃ before s₁ s₂ s₃ s₄ after, markup = before ++ (targetText s₁ s₂ s₃ name s₄ ++ after) ∧
    (Blank s₁ ∧ Blank s₂ ∧ Blank s₃ ∧ Blank s₄) ∧
    ∀ c, before.getLast? = some c → isWordChar c = false

/-- What follows the equals sign of a target: a closing brace ends it, and it holds no second one. -/
theorem equals_not_mem_target {s₂ s₃ s₄ name : Text} (h₂ : Blank s₂) (h₃ : Blank s₃) (h₄ : Blank s₄)
    (hname : Capitalised isIdentChar name) :
    '=' ∉ s₂ ++ ("\x7b" : Text) ++ s₃ ++ name ++ s₄ ++ ("\x7d" : Text) := by
  have hspace : isSpace '=' = false := by decide
  have hinName : '=' ∉ name := by
    obtain ⟨first, more, rfl, hcapital, hmore⟩ := hname
    intro hmem
    rcases List.mem_cons.mp hmem with rfl | hmem
    · exact absurd hcapital (by decide)
    · exact absurd (hmore '=' hmem) (by decide)
  simp [h₂.not_mem hspace, h₃.not_mem hspace, h₄.not_mem hspace, hinName]

/-- The word and the white space in front of an equals sign hold no part of another target's end. -/
theorem not_target_front {u back rest rest' : Text} (hu : Blank u) (hequals : '=' ∉ back)
    (hbrace : '}' ∈ back) (h : back ++ rest = ("this" ++ u) ++ ("=" ++ rest')) : False := by
  have hfront : '}' ∉ ("this" : Text) ++ u := by
    simp [hu.not_mem (show isSpace '}' = false by decide)]
  rcases List.append_eq_append_iff.mp h with ⟨more, hmore, -⟩ | ⟨more, hmore, hrest⟩
  · exact hfront (hmore ▸ List.mem_append_left more hbrace)
  · cases more with
    | nil =>
      rw [List.append_nil] at hmore
      exact hfront (hmore ▸ hbrace)
    | cons d more =>
      have hd : '=' = d := (List.cons.inj hrest).1
      exact hequals (by rw [hmore, ← hd]; simp)

/-- One target does not reach over the start of another. -/
theorem target_clear {c stop place next : Cursor} {s₁ s₂ s₃ s₄ u₁ u₂ u₃ u₄ name other : Text}
    (h : c.Reads (targetText s₁ s₂ s₃ name s₄) stop)
    (hplace : place.Reads (targetText u₁ u₂ u₃ other u₄) next) (htext : c.text = place.text)
    (hlt : c.offset < place.offset) (h₁ : Blank s₁) (h₂ : Blank s₂) (h₃ : Blank s₃) (h₄ : Blank s₄)
    (hu : Blank u₁) (hname : Capitalised isIdentChar name) : stop.offset ≤ place.offset := by
  by_cases hin : place.offset < stop.offset
  · exfalso
    obtain ⟨front, back, hsplit, hfront, hne, hafter⟩ := h.inside htext (Nat.le_of_lt hlt) hin
    have hsame : back ++ stop.after = ("this" ++ u₁) ++ ("=" ++
        ((u₂ ++ "\x7b" ++ u₃ ++ other ++ u₄ ++ "\x7d") ++ next.after)) := by
      rw [← hafter, hplace.after, targetText]
      simp only [List.append_assoc]
    have hequals := equals_not_mem_target h₂ h₃ h₄ hname
    rcases List.append_eq_append_iff.mp hsplit with ⟨more, -, hmore⟩ | ⟨more, hmore, hback⟩
    · -- behind the equals sign: the rest of the match ends in a brace and holds no equals sign
      refine not_target_front hu ?_ ?_ hsame
      · exact fun hmem => hequals (hmore ▸ List.mem_append_right more hmem)
      · have hlast : '}' = back.getLast hne := by
          rw [← List.dropLast_concat_getLast hne, ← List.append_assoc] at hmore
          exact (List.cons.inj (List.append_inj' hmore rfl).2).1
        rw [hlast]
        exact List.getLast_mem hne
    · cases more with
      | nil =>
        rw [List.nil_append] at hback
        refine not_target_front hu (hback ▸ hequals) ?_ hsame
        rw [hback]
        simp
      | cons d more =>
        -- in front of it: no character but the first starts the word
        have hd : d = 't' := by
          rw [hback] at hsame
          exact (List.cons.inj hsame).1
        have hlater : 't' ∉ ("his" : Text) ++ s₁ ++ ("=" : Text) := by
          simp [h₁.not_mem (show isSpace 't' = false by decide)]
        cases front with
        | nil =>
          simp only [List.length_nil] at hfront
          omega
        | cons e front =>
          have htail : ("his" : Text) ++ s₁ ++ ("=" : Text) = front ++ d :: more :=
            (List.cons.inj hmore).2
          rw [htail, hd] at hlater
          simp at hlater
  · omega

theorem TargetIn.mem_targets {markup name : Text} (h : TargetIn markup name)
    (hname : Capitalised isIdentChar name) :
    ∃ offset, (offset, name) ∈ Cursor.collect target? markup := by
  obtain ⟨before, s₁, s₂, s₃, s₄, after, rfl, ⟨h₁, h₂, h₃, h₄⟩, hfresh⟩ := h
  let place : Cursor := ⟨before.reverse, targetText s₁ s₂ s₃ name s₄ ++ after⟩
  have hplace : place.text = before ++ (targetText s₁ s₂ s₃ name s₄ ++ after) := by
    simp [place, Cursor.text]
  have hreads := Cursor.reads_append before.reverse (targetText s₁ s₂ s₃ name s₄) after
  have hprev : ∀ x, place.prev? = some x → isWordChar x = false := by
    intro x hx
    refine hfresh x ?_
    rw [← hx, Cursor.prev?, List.head?_reverse]
  obtain ⟨offset, hmatch⟩ := target?_of_reads hprev h₁ h₂ h₃ h₄ hname hreads
  refine ⟨offset, ?_⟩
  rw [← hplace]
  refine Cursor.mem_collect_of_clear hmatch ?_ fun c found stop htext hfound hlt => ?_
  · simp [place, targetText]
  · obtain ⟨t₁, t₂, t₃, t₄, hb₁, hb₂, hb₃, hb₄, hshape, hread⟩ := reads_of_target? hfound
    exact target_clear hread hreads htext hlt hb₁ hb₂ hb₃ hb₄ h₁ hshape

/-! ## Components without uses -/

/-- Evidence in the markup makes a component used. -/
theorem mem_findAll_of_evidence {document : Document} {name : Text} (hname : Capitalised isIdentChar name)
    (h : TagIn document.markup.text name ∨ TargetIn document.markup.text name) :
    ∃ usage ∈ findAll document, usage.componentName = name := by
  obtain ⟨offset, hmem⟩ : ∃ offset, (offset, name) ∈ offsets document.markup.text := by
    rcases h with htag | htarget
    · obtain ⟨first, more, rfl, hfirst, -⟩ := hname
      obtain ⟨offset, rest, hmem, hclosed⟩ := htag.mem_tags hfirst
      refine ⟨offset, List.mem_mergeSort.mpr (List.mem_append_left _ ?_)⟩
      exact List.mem_filterMap.mpr ⟨(offset, first :: more, rest), hmem, by simp [hclosed]⟩
    · obtain ⟨offset, hmem⟩ := htarget.mem_targets hname
      exact ⟨offset, List.mem_mergeSort.mpr (List.mem_append_right _ hmem)⟩
  exact ⟨_, List.mem_map_of_mem hmem, rfl⟩

/-- A component stays unused only if no use bears its name. -/
theorem ne_of_link_unused {component : ComponentImport} {usages : List ComponentUsage}
    (h : (component.link usages).isUsed = false) {usage : ComponentUsage} (hmem : usage ∈ usages) :
    usage.componentName ≠ component.componentName := by
  intro hsame
  have hkept : usage ∈ usages.filter (·.componentName == component.componentName) :=
    List.mem_filter.mpr ⟨hmem, by simpa using hsame⟩
  have hnone : usages.filter (·.componentName == component.componentName) = [] := by
    simpa [ComponentImport.link, ComponentImport.isUsed] using h
  rw [hnone] at hkept
  cases hkept

end ComponentAudit.ComponentUsage
