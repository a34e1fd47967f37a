import ComponentAudit.Proofs.Finding.Component
import ComponentAudit.Proofs.Finding.Script
import ComponentAudit.Proofs.Script.Place
import Mathlib.Data.List.Sort

/-! # Places in order

The offsets of a search come out strictly increasing: those that were sorted because each is kept
once, those that a recogniser collects because a match starts behind the one before it. Where two
searches are put together, as for components, no place can be found by both. -/

namespace ComponentAudit

/-! ## Sorted offsets -/

theorem pairwise_lt_eraseDups (offsets : List Nat) (h : offsets.Pairwise (· ≤ ·)) :
    offsets.eraseDups.Pairwise (· < ·) := by
  match offsets, h with
  | [], _ => exact .nil
  | first :: rest, h =>
    obtain ⟨hfirst, hrest⟩ := List.pairwise_cons.mp h
    rw [List.eraseDups_cons, List.pairwise_cons]
    refine ⟨?_, pairwise_lt_eraseDups _ (hrest.sublist List.filter_sublist)⟩
    intro later hlater
    rw [List.mem_eraseDups, List.mem_filter] at hlater
    have hle := hfirst later hlater.1
    have hne : later ≠ first := by simpa using hlater.2
    omega
termination_by offsets.length
decreasing_by exact Nat.lt_succ_of_le (List.length_filter_le _ _)

theorem nodup_eraseDups {α : Type} [BEq α] [LawfulBEq α] (l : List α) : l.eraseDups.Nodup := by
  match l with
  | [] => exact List.nodup_nil
  | a :: rest =>
    rw [List.eraseDups_cons, List.nodup_cons]
    refine ⟨fun hmem => ?_, nodup_eraseDups _⟩
    have hother := (List.mem_filter.mp (List.mem_eraseDups.mp hmem)).2
    simp at hother
termination_by l.length
decreasing_by exact Nat.lt_succ_of_le (List.length_filter_le _ _)

theorem pairwise_mergeSort_key {α : Type} (key : α → Nat) (l : List α) :
    (l.mergeSort fun a b => key a ≤ key b).Pairwise fun a b => key a ≤ key b := by
  refine List.Pairwise.imp of_decide_eq_true (List.pairwise_mergeSort ?_ ?_ l)
  · intro a b c hab hbc
    rw [decide_eq_true_eq] at hab hbc ⊢
    exact Nat.le_trans hab hbc
  · intro a b
    simpa using Nat.le_total (key a) (key b)

theorem pairwise_sortOffsets (offsets : List Nat) : (sortOffsets offsets).Pairwise (· < ·) :=
  pairwise_lt_eraseDups _ (pairwise_mergeSort_key id offsets)

/-- More offsets to sort only add to the result. -/
theorem sortOffsets_sublist {few many : List Nat} (h : few ⊆ many) :
    (sortOffsets few).Sublist (sortOffsets many) := by
  have hsubset : sortOffsets few ⊆ sortOffsets many := by
    intro offset hoffset
    exact mem_sortOffsets.mpr (h (mem_sortOffsets.mp hoffset))
  have honce : (sortOffsets few).Nodup := (pairwise_sortOffsets few).imp Nat.ne_of_lt
  exact List.sublist_of_subperm_of_pairwise (List.subperm_of_subset honce hsubset)
    (pairwise_sortOffsets few) (pairwise_sortOffsets many)

/-! ## Occurrences -/

namespace Text

theorem lt_length_of_mem_occurrences {t needle : Text} {p : Nat} (h : p ∈ t.occurrences needle) :
    p < t.length := by
  obtain ⟨hne, before, after, rfl, rfl⟩ := mem_occurrences.mp h
  have hpos := List.length_pos_iff.mpr hne
  simp only [List.length_append]
  omega

theorem lt_length_of_mem_tokensIn {t name : Text} {start stop p : Nat}
    (h : p ∈ t.tokensIn name start stop) : p < t.length := by
  have hfound := (List.mem_filter.mp h).1
  exact lt_length_of_mem_occurrences (List.mem_filter.mp hfound).1

theorem pairwise_occurrences (t needle : Text) : (t.occurrences needle).Pairwise (· < ·) := by
  unfold occurrences
  split
  · exact .nil
  · rename_i hempty
    have hne : needle ≠ [] := fun he => hempty (List.isEmpty_iff.mpr he)
    generalize 0 = offset
    induction t generalizing offset with
    | nil => exact .nil
    | cons c t ih =>
      unfold occurrencesFrom
      split
      · refine List.pairwise_cons.mpr ⟨?_, ih (offset + 1)⟩
        intro later hlater
        obtain ⟨before, -, -, rfl⟩ := (mem_occurrencesFrom hne).mp hlater
        omega
      · exact ih (offset + 1)

theorem pairwise_tokensIn (t name : Text) (start stop : Nat) :
    (t.tokensIn name start stop).Pairwise (· < ·) :=
  ((pairwise_occurrences t name).filter _).filter _

end Text

/-! ## Collected matches -/

namespace Cursor

theorem getElem?_of_peek? {c : Cursor} {t : Text} {x : Char} (ht : c.text = t)
    (hx : c.peek? = some x) : t[c.offset]? = some x := by
  rw [← hx, peek?, after_of_text ht, List.head?_drop]

variable {α : Type} {recognise : Cursor → Option (α × Cursor)} (key : α → Nat)
  (h : ∀ c a stop, recognise c = some (a, stop) →
    c.offset ≤ key a ∧ (key a = c.offset ∨ key a < stop.offset))
include h

/-- The search goes on behind a match, and what it finds there is keyed behind it. -/
theorem pairwise_collectFrom (covered : Nat) (before t : Text) :
    (∀ a ∈ collectFrom recognise covered before t, before.length + covered ≤ key a) ∧
      (collectFrom recognise covered before t).Pairwise fun a b => key a < key b := by
  induction t generalizing covered before with
  | nil => exact ⟨fun a ha => (List.not_mem_nil ha).elim, .nil⟩
  | cons c t ih =>
    have hbehind : ∀ n, ∀ a ∈ collectFrom recognise n (c :: before) t,
        before.length + 1 + n ≤ key a := by
      intro n
      exact (ih n (c :: before)).1
    cases covered with
    | succ covered =>
      refine ⟨?_, (ih covered (c :: before)).2⟩
      intro a ha
      have hle := hbehind covered a ha
      omega
    | zero =>
      unfold collectFrom
      split
      · refine ⟨?_, (ih 0 (c :: before)).2⟩
        intro a ha
        have hle := hbehind 0 a ha
        omega
      · rename_i found stop hfound
        obtain ⟨hstart, hkey⟩ := h _ _ _ hfound
        simp only [Cursor.offset] at hstart hkey
        refine ⟨?_, List.pairwise_cons.mpr ⟨?_, (ih _ (c :: before)).2⟩⟩
        · intro a ha
          rcases List.mem_cons.mp ha with rfl | ha
          · exact hstart
          · have hle := hbehind _ a ha
            omega
        · intro later hlater
          have hle := hbehind _ later hlater
          simp only [Cursor.offset] at hle
          omega

theorem pairwise_collect (t : Text) :
    (collect recognise t).Pairwise fun a b => key a < key b :=
  (pairwise_collectFrom key h 0 [] t).2

end Cursor

theorem ClassAttribute.offset_assignment? {name : Text} {c place stop : Cursor} {offset : Nat}
    (h : assignment? name c = some ((offset, place), stop)) : offset = c.offset := by
  unfold assignment? at h
  split at h
  · cases h
  · simp only [Option.bind_eq_bind, Option.bind_eq_some_iff] at h
    obtain ⟨word, -, assigned, -, he⟩ := h
    exact (Prod.mk.inj (Prod.mk.inj (Option.some.inj he)).1).1.symm

theorem StyleSelector.pairwise_idAttributes (markup : Text) :
    (Cursor.collect idAttribute? markup).Pairwise fun a b => a.1 < b.1 := by
  refine Cursor.pairwise_collect Prod.fst ?_ markup
  rintro c ⟨offset, value⟩ stop hfound
  simp only [idAttribute?, Option.bind_eq_bind, Option.bind_eq_some_iff, Prod.exists] at hfound
  obtain ⟨start, place, behind, hassigned, quote, -, hfound⟩ := hfound
  split at hfound
  · obtain ⟨quoted, -, he⟩ := Option.bind_eq_some_iff.mp hfound
    obtain rfl : start = offset := (Prod.mk.inj (Prod.mk.inj (Option.some.inj he)).1).1
    have hstart := ClassAttribute.offset_assignment? hassigned
    exact ⟨Nat.le_of_eq hstart.symm, .inl hstart⟩
  · cases hfound

/-! ## Components -/

namespace Text

theorem le_trans (a b c : Text) (hab : le a b = true) (hbc : le b c = true) : le a c = true := by
  induction a generalizing b c with
  | nil => rfl
  | cons x a ih =>
    cases b with
    | nil => cases hab
    | cons y b =>
      cases c with
      | nil => cases hbc
      | cons z c =>
        simp only [le, Bool.or_eq_true, Bool.and_eq_true, decide_eq_true_eq, beq_iff_eq] at hab hbc ⊢
        rcases hab with hxy | ⟨rfl, hab⟩
        · rcases hbc with hyz | ⟨rfl, -⟩
          · exact .inl (Nat.lt_trans hxy hyz)
          · exact .inl hxy
        · rcases hbc with hyz | ⟨rfl, hbc⟩
          · exact .inl hyz
          · exact .inr ⟨rfl, ih b c hab hbc⟩

theorem le_total (a b : Text) : (le a b || le b a) = true := by
  induction a generalizing b with
  | nil => rfl
  | cons x a ih =>
    cases b with
    | nil => rfl
    | cons y b =>
      have hrest := ih b
      simp only [le, Bool.or_eq_true, Bool.and_eq_true, decide_eq_true_eq, beq_iff_eq] at hrest ⊢
      rcases Nat.lt_trichotomy x.toNat y.toNat with hlt | heq | hgt
      · exact .inl (.inl hlt)
      · obtain rfl := Char.toNat_inj.mp heq
        exact hrest.imp (fun hle => .inr ⟨rfl, hle⟩) fun hle => .inr ⟨rfl, hle⟩
      · exact .inr (.inl hgt)

end Text

/-- The order of offsets, and of names at one offset. -/
theorem pairwise_mergeSort_named {α : Type} (offset : α → Nat) (name : α → Text) (l : List α) :
    (l.mergeSort fun a b =>
        offset a < offset b || (offset a == offset b && Text.le (name a) (name b))).Pairwise
      fun a b => offset a < offset b ∨ offset a = offset b ∧ Text.le (name a) (name b) = true := by
  refine List.Pairwise.imp ?_ (List.pairwise_mergeSort ?_ ?_ l)
  · intro a b hab
    simpa only [Bool.or_eq_true, Bool.and_eq_true, decide_eq_true_eq, beq_iff_eq] using hab
  · intro a b c hab hbc
    simp only [Bool.or_eq_true, Bool.and_eq_true, decide_eq_true_eq, beq_iff_eq] at hab hbc ⊢
    rcases hab with hlt | ⟨heq, hname⟩
    · left
      omega
    · rcases hbc with hlt | ⟨heq', hname'⟩
      · left
        omega
      · exact .inr ⟨heq.trans heq', Text.le_trans _ _ _ hname hname'⟩
  · intro a b
    have hnames := Text.le_total (name a) (name b)
    simp only [Bool.or_eq_true, Bool.and_eq_true, decide_eq_true_eq, beq_iff_eq] at hnames ⊢
    rcases Nat.lt_trichotomy (offset a) (offset b) with hlt | heq | hgt
    · exact .inl (.inl hlt)
    · exact hnames.imp (fun hle => .inr ⟨heq, hle⟩) fun hle => .inr ⟨heq.symm, hle⟩
    · exact .inr (.inl hgt)

namespace ComponentUsage

/-- A tag is found at its `<`. -/
theorem tag?_place {markup : Text} {found : Nat × Text × Text}
    (h : found ∈ Cursor.collect tag? markup) : markup[found.1]? = some '<' := by
  obtain ⟨c, stop, htext, hfound⟩ := Cursor.mem_collect h
  obtain ⟨hreads, -, -, hoffset, -⟩ := tag?_eq_some.mp hfound
  rw [hoffset]
  exact Cursor.getElem?_of_peek? htext hreads.peek?

/-- A target is found at the start of its name. -/
theorem target?_place {c stop : Cursor} {offset : Nat} {name : Text}
    (h : target? c = some ((offset, name), stop)) :
    ∃ place : Cursor, place.offset = offset ∧ c.Leads place ∧ place.offset < stop.offset ∧
      ∃ first, place.peek? = some first ∧ isAsciiCapital first = true := by
  unfold target? at h
  split at h
  · cases h
  · simp only [Option.bind_eq_bind, Option.bind_eq_some_iff, Prod.exists] at h
    obtain ⟨word, hword, assigned, hassigned, brace, hbrace, name, named, hname, close, hclose,
      he⟩ := h
    obtain ⟨hfound, rfl⟩ := Prod.mk.inj (Option.some.inj he)
    obtain ⟨hreads, ⟨first, more, rfl, hcapital, -⟩, -⟩ := Cursor.name?_eq_some.mp hname
    have hfront := ((Cursor.leads_expect? hword).trans (Cursor.leads_skipSpaces word)).trans
      (Cursor.leads_expect? hassigned)
    have hinside := ((Cursor.leads_skipSpaces assigned).trans (Cursor.leads_expect? hbrace)).trans
      (Cursor.leads_skipSpaces brace)
    have hback := (Cursor.leads_skipSpaces named).trans (Cursor.leads_expect? hclose)
    refine ⟨brace.skipSpaces, (Prod.mk.inj hfound).1, hfront.trans hinside, ?_, first,
      hreads.peek?, hcapital⟩
    have hlength := hreads.offset
    have hle := hback.le
    rw [List.length_cons] at hlength
    omega

theorem capital_of_mem_targets {markup : Text} {found : Nat × Text}
    (h : found ∈ Cursor.collect target? markup) :
    ∃ first, markup[found.1]? = some first ∧ isAsciiCapital first = true := by
  obtain ⟨c, stop, htext, hfound⟩ := Cursor.mem_collect h
  obtain ⟨place, hoffset, hleads, -, first, hpeek, hcapital⟩ := target?_place hfound
  refine ⟨first, ?_, hcapital⟩
  rw [← hoffset]
  exact Cursor.getElem?_of_peek? (hleads.text.trans htext) hpeek

theorem pairwise_tags (markup : Text) :
    (Cursor.collect tag? markup).Pairwise fun a b => a.1 < b.1 := by
  refine Cursor.pairwise_collect Prod.fst ?_ markup
  rintro c ⟨offset, name, rest⟩ stop hfound
  obtain ⟨-, -, -, hoffset, -⟩ := tag?_eq_some.mp hfound
  exact ⟨Nat.le_of_eq hoffset.symm, .inl hoffset⟩

theorem pairwise_targets (markup : Text) :
    (Cursor.collect target? markup).Pairwise fun a b => a.1 < b.1 := by
  refine Cursor.pairwise_collect Prod.fst ?_ markup
  rintro c ⟨offset, name⟩ stop hfound
  obtain ⟨place, rfl, hleads, hlt, -⟩ := target?_place hfound
  exact ⟨hleads.le, .inr hlt⟩

/-- No `<` is a capital, so a tag and a target are never found at one place. -/
theorem pairwise_offsets (markup : Text) : (offsets markup).Pairwise fun a b => a.1 < b.1 := by
  unfold offsets
  extract_lets tags
  have htags : tags.Pairwise fun a b => a.1 < b.1 := by
    refine (pairwise_tags markup).filterMap _ ?_
    rintro ⟨offset, name, rest⟩ ⟨later, other, behind⟩ hlt found hfound next hnext
    simp only [Option.ite_none_right_eq_some, Option.some.injEq] at hfound hnext
    rw [← hfound.2, ← hnext.2]
    exact hlt
  have hdistinct : (tags ++ Cursor.collect target? markup).Pairwise fun a b => a.1 ≠ b.1 := by
    have htargets := pairwise_targets markup
    refine List.pairwise_append.mpr ⟨htags.imp Nat.ne_of_lt, htargets.imp Nat.ne_of_lt, ?_⟩
    intro tag htag target htarget he
    obtain ⟨⟨offset, name, rest⟩, hfound, hkept⟩ := List.mem_filterMap.mp htag
    simp only [Option.ite_none_right_eq_some, Option.some.injEq] at hkept
    have hopen := tag?_place hfound
    obtain ⟨first, hfirst, hcapital⟩ := capital_of_mem_targets htarget
    rw [← he, ← hkept.2, hopen] at hfirst
    rw [← Option.some.inj hfirst] at hcapital
    exact absurd hcapital (by decide)
  have hsorted := pairwise_mergeSort_named Prod.fst Prod.snd (tags ++ Cursor.collect target? markup)
  refine (hsorted.and ((List.mergeSort_perm _ _).symm.pairwise hdistinct Ne.symm)).imp ?_
  rintro a b ⟨hlt | ⟨heq, -⟩, hne⟩
  · exact hlt
  · exact absurd heq hne

theorem lt_length_of_mem_offsets {markup : Text} {found : Nat × Text} (h : found ∈ offsets markup) :
    found.1 < markup.length := by
  rcases List.mem_append.mp (List.mem_mergeSort.mp h) with htag | htarget
  · obtain ⟨⟨offset, name, rest⟩, htag, hkept⟩ := List.mem_filterMap.mp htag
    simp only [Option.ite_none_right_eq_some, Option.some.injEq] at hkept
    rw [← hkept.2]
    exact (List.getElem?_eq_some_iff.mp (tag?_place htag)).1
  · obtain ⟨first, hfirst, -⟩ := capital_of_mem_targets htarget
    exact (List.getElem?_eq_some_iff.mp hfirst).1

end ComponentUsage

end ComponentAudit
