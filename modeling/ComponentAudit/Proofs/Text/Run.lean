import ComponentAudit.Proofs.Script.Recogniser
import ComponentAudit.Proofs.Text.Slice
import ComponentAudit.Proofs.Usage.Order

/-! # Identifiers as maximal runs

An identifier of a text is a maximal run of identifier characters (`IsRun`). Two runs are the same or lie
apart (`IsRun.lt_of_lt`, `IsRun.unique`). A search compares a name with every stretch of the text and looks
at the two neighbours of the stretch, and what it finds between two offsets are the runs there that spell
the name (`tokensIn_findsRuns`). -/

namespace ComponentAudit.Text

/-- Whether an identifier character stands at an offset. -/
def identAt (t : Text) (offset : Nat) : Bool := t[offset]?.any isIdentChar

/-- The characters from `start` to `stop` are identifier characters, and neither neighbour is one. -/
structure IsRun (t : Text) (start stop : Nat) : Prop where
  nonempty : start < stop
  inside : ∀ offset, start ≤ offset → offset < stop → t.identAt offset = true
  left : start ≠ 0 → t.identAt (start - 1) = false
  right : t.identAt stop = false

/-- What a search for a name between two offsets finds: the runs that spell the name, from left to right.
They lie apart, and a run that crosses an edge holds no hit. -/
structure FindsRuns (t name : Text) (start stop : Nat) (hits : List Nat) : Prop where
  increasing : hits.Pairwise (· < ·)
  mem_iff : ∀ p, p ∈ hits ↔ ∃ q, IsRun t p q ∧ t.slice p q = name ∧ start ≤ p ∧ q ≤ stop
  apart : hits.Pairwise fun p next => p + name.length < next
  crossing : ∀ p q, IsRun t p q → p < start ∨ stop < q → ∀ hit ∈ hits, ¬(p ≤ hit ∧ hit < q)

variable {t name : Text} {start stop start' stop' p : Nat}

theorem identAt_of_length_le (h : t.length ≤ p) : t.identAt p = false := by
  rw [identAt, List.getElem?_eq_none h]
  rfl

/-! ## Runs -/

namespace IsRun

/-- A run goes no further than to a place without an identifier character. -/
theorem stop_le (h : IsRun t start stop) (hle : start ≤ p) (hp : t.identAt p = false) : stop ≤ p := by
  by_contra hlt
  rw [h.inside p hle (by omega)] at hp
  cases hp

theorem start_le_length (h : IsRun t start stop) : start ≤ t.length := by
  by_contra hlt
  have hstart := h.inside start (Nat.le_refl _) h.nonempty
  rw [identAt_of_length_le (by omega)] at hstart
  cases hstart

theorem stop_le_length (h : IsRun t start stop) : stop ≤ t.length :=
  h.stop_le h.start_le_length (identAt_of_length_le (Nat.le_refl _))

/-- A run ends in front of the next one, with a character between them. -/
theorem lt_of_lt (h : IsRun t start stop) (h' : IsRun t start' stop') (hlt : start < start') :
    stop < start' := by
  have hle := h.stop_le (by omega : start ≤ start' - 1) (h'.left (by omega))
  omega

/-- Runs that share a place are the same. -/
theorem unique (h : IsRun t start stop) (h' : IsRun t start' stop') (hp : start ≤ p ∧ p < stop)
    (hp' : start' ≤ p ∧ p < stop') : start = start' ∧ stop = stop' := by
  obtain hlt | rfl | hlt := Nat.lt_trichotomy start start'
  · have := h.lt_of_lt h' hlt
    omega
  · have hle := h.stop_le (Nat.le_of_lt h'.nonempty) h'.right
    have hge := h'.stop_le (Nat.le_of_lt h.nonempty) h.right
    exact ⟨rfl, Nat.le_antisymm hle hge⟩
  · have := h'.lt_of_lt h hlt
    omega

theorem length_slice (h : IsRun t start stop) : (t.slice start stop).length = stop - start :=
  Text.length_slice start h.stop_le_length

end IsRun

/-! ## Stretches that spell a name -/

/-- An occurrence is a stretch that spells the name. -/
theorem mem_occurrences_iff_slice (hne : name ≠ []) :
    p ∈ t.occurrences name ↔ t.slice p (p + name.length) = name := by
  rw [mem_occurrences]
  constructor
  · rintro ⟨-, before, after, rfl, rfl⟩
    refine slice_of_prefix ⟨after, ?_⟩
    rw [List.append_assoc, List.drop_left]
  · intro hslice
    have hprefix : name <+: t.drop p := by
      rw [← hslice]
      exact List.take_prefix _ _
    obtain ⟨after, hafter⟩ := hprefix
    have hle : p ≤ t.length := by
      by_contra hlt
      rw [List.drop_of_length_le (by omega)] at hafter
      exact hne (List.append_eq_nil_iff.mp hafter).1
    refine ⟨hne, t.take p, after, ?_, (List.length_take_of_le hle).symm⟩
    rw [List.append_assoc, hafter, List.take_append_drop]

/-- A stretch is a whole token if both its neighbours are no identifier characters. -/
theorem isWholeToken_iff (hle : start ≤ t.length) :
    t.isWholeToken start stop = true ↔
      (start ≠ 0 → t.identAt (start - 1) = false) ∧ t.identAt stop = false := by
  rw [isWholeToken, List.head?_drop, Bool.and_eq_true, Bool.not_eq_true', Bool.not_eq_true']
  refine and_congr_left fun _ => ?_
  cases start with
  | zero => simp
  | succ n =>
    have hlast : (t.take (n + 1)).getLast? = t[n]? := by
      rw [List.getLast?_take, if_neg (Nat.succ_ne_zero n), Nat.add_sub_cancel,
        List.getElem?_eq_getElem (by omega), Option.some_or]
    rw [hlast, identAt]
    simp

/-- The characters of a stretch are those of the name that it spells. -/
theorem identAt_of_slice (hname : IsName name) (hslice : t.slice p (p + name.length) = name) {offset : Nat}
    (hle : p ≤ offset) (hlt : offset < p + name.length) : t.identAt offset = true := by
  have hchar : t[offset]? = name[offset - p]? := by
    have h := congrArg (·[offset - p]?) hslice
    simp only [slice, Nat.add_sub_cancel_left] at h
    rw [List.getElem?_take_of_lt (by omega), List.getElem?_drop, Nat.add_sub_cancel' hle] at h
    exact h
  rw [identAt, hchar, List.getElem?_eq_getElem (by omega)]
  exact hname.2 _ (List.getElem_mem _)

/-- A run that spells a name is a stretch that does, with no identifier character on either side. -/
theorem isRun_iff_isWholeToken (hname : IsName name) (hslice : t.slice p (p + name.length) = name)
    (hle : p ≤ t.length) :
    IsRun t p (p + name.length) ↔ t.isWholeToken p (p + name.length) = true := by
  rw [isWholeToken_iff hle]
  constructor
  · exact fun h => ⟨h.left, h.right⟩
  · rintro ⟨hleft, hright⟩
    have hpos := List.length_pos_iff.mpr hname.1
    exact ⟨by omega, fun offset => identAt_of_slice hname hslice, hleft, hright⟩

/-! ## The search -/

theorem mem_tokensIn_iff (hname : IsName name) :
    p ∈ t.tokensIn name start stop ↔
      ∃ q, IsRun t p q ∧ t.slice p q = name ∧ start ≤ p ∧ q ≤ stop := by
  rw [tokensIn, List.mem_filter, occurrencesIn, List.mem_filter, mem_occurrences_iff_slice hname.1,
    Bool.and_eq_true, decide_eq_true_eq, decide_eq_true_eq]
  constructor
  · rintro ⟨⟨hslice, hstart, hstop⟩, hwhole⟩
    have hp := lt_length_of_mem_occurrences ((mem_occurrences_iff_slice hname.1).mpr hslice)
    exact ⟨_, (isRun_iff_isWholeToken hname hslice (Nat.le_of_lt hp)).mpr hwhole, hslice, hstart, hstop⟩
  · rintro ⟨q, hrun, hslice, hstart, hstop⟩
    have hq : q = p + name.length := by
      have hlength := hrun.length_slice
      rw [hslice] at hlength
      have := hrun.nonempty
      omega
    subst hq
    exact ⟨⟨hslice, hstart, hstop⟩, (isRun_iff_isWholeToken hname hslice hrun.start_le_length).mp hrun⟩

/-- Between two offsets, the search for a name finds the maximal runs of identifier characters that
spell it. -/
theorem tokensIn_findsRuns (hname : IsName name) (t : Text) (start stop : Nat) :
    FindsRuns t name start stop (t.tokensIn name start stop) where
  increasing := pairwise_tokensIn t name start stop
  mem_iff p := mem_tokensIn_iff hname
  apart := by
    refine (pairwise_tokensIn t name start stop).imp_of_mem fun hp hnext hlt => ?_
    obtain ⟨q, hrun, hslice, -, -⟩ := (mem_tokensIn_iff hname).mp hp
    obtain ⟨q', hrun', -, -, -⟩ := (mem_tokensIn_iff hname).mp hnext
    have hq := hrun.lt_of_lt hrun' hlt
    have hlength := hrun.length_slice
    rw [hslice] at hlength
    omega
  crossing p q hrun hedge hit hhit hin := by
    obtain ⟨q', hrun', -, hstart, hstop⟩ := (mem_tokensIn_iff hname).mp hhit
    obtain ⟨rfl, rfl⟩ := hrun.unique hrun' hin ⟨Nat.le_refl _, hrun'.nonempty⟩
    omega

/-- A name that overlaps itself, in a window that cuts the first and the last run. -/
theorem tokensIn_findsRuns_cut :
    IsName "aa" ∧ FindsRuns "aa aaa aa éaa aa" "aa" 1 15 (tokensIn "aa aaa aa éaa aa" "aa" 1 15) ∧
      tokensIn "aa aaa aa éaa aa" "aa" 1 15 = [7] := by
  have hname : IsName "aa" := Import.isName_of_isIdentifier (by decide)
  exact ⟨hname, tokensIn_findsRuns hname _ 1 15, by decide +kernel⟩

end ComponentAudit.Text
