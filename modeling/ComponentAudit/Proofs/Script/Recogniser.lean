import ComponentAudit.Proofs.Text.Reading
import ComponentAudit.Script.Import

/-! # What the recognisers of a script read

Readers only move forward and never change the text they read in (`Cursor.Leads`), so a place is known
by its offset (`Cursor.after_of_text`), and what a search collects was recognised at a place of the text
(`Cursor.mem_collect`). A name is read as the whole run of identifier characters at its place
(`Cursor.ReadsName`). -/

namespace ComponentAudit

/-! ## Names -/

/-- A name: at least one character, all of them identifier characters. -/
def IsName (name : Text) : Prop := name ≠ [] ∧ ∀ c ∈ name, isIdentChar c = true

theorem isIdentChar_of_isIdentHead {c : Char} (h : isIdentHead c = true) : isIdentChar c = true := by
  simp only [isIdentHead, Bool.or_eq_true] at h
  rcases h with (h | h) | h
  · have hlt : c.toNat < 128 := by
      simp only [isAsciiLetter, Bool.or_eq_true, Bool.and_eq_true, decide_eq_true_eq] at h
      omega
    simp [isIdentChar, isAlphanumeric, hlt, h]
  · simp [isIdentChar, h]
  · simp [isIdentChar, h]

theorem isName_cons_takeWhile {c : Char} {rest : Text} (h : isIdentChar c = true) :
    IsName (c :: rest.takeWhile isIdentChar) := by
  refine ⟨by simp, fun d hd => ?_⟩
  rcases List.mem_cons.mp hd with rfl | hd
  · exact h
  · exact List.all_eq_true.mp List.all_takeWhile d hd

theorem Import.isName_of_isIdentifier {t : Text} (h : isIdentifier t = true) : IsName t := by
  cases t with
  | nil => cases h
  | cons c rest =>
    simp only [isIdentifier, Bool.and_eq_true, List.all_eq_true] at h
    refine ⟨by simp, fun d hd => ?_⟩
    rcases List.mem_cons.mp hd with rfl | hd
    · exact isIdentChar_of_isIdentHead h.1
    · exact h.2 d hd

/-! ## Places -/

namespace Cursor

theorem after_of_text {c : Cursor} {t : Text} (h : c.text = t) : c.after = t.drop c.offset := by
  rw [← h, text, offset, ← List.length_reverse, List.drop_left]

theorem offset_le_length (c : Cursor) : c.offset ≤ c.text.length := by
  simp [offset, text]

theorem seek_offset (c : Cursor) : seek c.text c.offset = c := by
  refine eq_of_text_of_offset (text_seek _ _) ?_
  rw [offset_seek]
  exact Nat.min_eq_left c.offset_le_length

/-- What a search collects was recognised at a place of the text. -/
theorem mem_collectFrom {α : Type} {recognise : Cursor → Option (α × Cursor)} {a : α} {covered : Nat}
    {before t : Text} (h : a ∈ collectFrom recognise covered before t) :
    ∃ c stop, c.text = before.reverse ++ t ∧ recognise c = some (a, stop) := by
  induction t generalizing covered before with
  | nil => simp [collectFrom] at h
  | cons d t ih =>
    have hnext : ∀ n, a ∈ collectFrom recognise n (d :: before) t →
        ∃ c stop, c.text = before.reverse ++ d :: t ∧ recognise c = some (a, stop) := by
      intro n hn
      obtain ⟨c, stop, hc, hr⟩ := ih hn
      exact ⟨c, stop, by simpa using hc, hr⟩
    cases covered with
    | succ covered => exact hnext covered h
    | zero =>
      rw [collectFrom] at h
      split at h
      · exact hnext 0 h
      · rename_i found stop hr
        rcases List.mem_cons.mp h with rfl | h
        · exact ⟨⟨before, d :: t⟩, stop, rfl, hr⟩
        · exact hnext _ h

theorem mem_collect {α : Type} {recognise : Cursor → Option (α × Cursor)} {a : α} {t : Text}
    (h : a ∈ collect recognise t) : ∃ c stop, c.text = t ∧ recognise c = some (a, stop) :=
  mem_collectFrom h

/-- Nothing is collected from a text in which nothing is recognised. -/
theorem collectFrom_eq_nil {α : Type} {recognise : Cursor → Option (α × Cursor)} {covered : Nat}
    {before t : Text} (h : ∀ c : Cursor, c.after <:+ t → recognise c = none) :
    collectFrom recognise covered before t = [] := by
  induction t generalizing covered before with
  | nil => rfl
  | cons x t ih =>
    have hnext : ∀ c : Cursor, c.after <:+ t → recognise c = none := by
      intro c hc
      exact h c (List.suffix_cons_iff.mpr (.inr hc))
    cases covered with
    | succ covered => exact ih hnext
    | zero =>
      rw [collectFrom, h ⟨before, x :: t⟩ (List.suffix_refl _)]
      exact ih hnext

/-- A place that a reader comes to from another one. -/
def Leads (c d : Cursor) : Prop := ∃ read, c.Reads read d

namespace Leads

variable {c d e : Cursor}

theorem refl (c : Cursor) : c.Leads c := ⟨[], rfl, rfl⟩

theorem trans (h : c.Leads d) (h' : d.Leads e) : c.Leads e := by
  obtain ⟨read, hread⟩ := h
  obtain ⟨more, hmore⟩ := h'
  exact ⟨read ++ more, hread.trans hmore⟩

theorem text (h : c.Leads d) : d.text = c.text := by
  obtain ⟨read, hread⟩ := h
  rw [Cursor.text, Cursor.text, hread.before, hread.after]
  simp

theorem le (h : c.Leads d) : c.offset ≤ d.offset := by
  obtain ⟨read, hread⟩ := h
  rw [hread.offset]
  exact Nat.le_add_right _ _

end Leads

theorem leads_cons (before rest : Text) (c : Char) : Leads ⟨before, c :: rest⟩ ⟨c :: before, rest⟩ :=
  ⟨[c], rfl, rfl⟩

theorem leads_advance (c : Cursor) (n : Nat) : c.Leads (c.advance n) :=
  ⟨c.after.take n, by simp [advance], rfl⟩

theorem leads_skipWhile (p : Char → Bool) (c : Cursor) : c.Leads (c.skipWhile p) :=
  ⟨_, reads_skipWhile p c⟩

theorem leads_skipSpaces (c : Cursor) : c.Leads c.skipSpaces := leads_skipWhile isSpace c

theorem leads_expect? {word : Text} {c stop : Cursor} (h : c.expect? word = some stop) : c.Leads stop :=
  ⟨word, expect?_eq_some.mp h⟩

theorem leads_spaces? {c stop : Cursor} (h : c.spaces? = some stop) : c.Leads stop := by
  unfold spaces? at h
  split at h
  · rw [← Option.some.inj h]
    exact leads_skipSpaces c
  · cases h

theorem leads_wordAndSpaces? {word : Text} {c stop : Cursor} (h : c.wordAndSpaces? word = some stop) :
    c.Leads stop := by
  obtain ⟨next, hnext, hstop⟩ := Option.bind_eq_some_iff.mp h
  exact (leads_expect? hnext).trans (leads_spaces? hstop)

theorem leads_oneOf? {α : Type} {words : List (Text × α)} {c stop : Cursor} {a : α}
    (h : c.oneOf? words = some (a, stop)) : c.Leads stop := by
  obtain ⟨⟨word, value⟩, _, hw⟩ := List.exists_of_findSome?_eq_some h
  obtain ⟨next, hnext, he⟩ := Option.map_eq_some_iff.mp hw
  rw [← (Prod.mk.inj he).2]
  exact leads_wordAndSpaces? hnext

theorem leads_literal? {isDelimiter : Char → Bool} {c stop : Cursor} {path : Text}
    (h : c.literal? isDelimiter = some (path, stop)) : c.Leads stop := by
  unfold literal? at h
  simp only [Option.bind_eq_bind, Option.bind_eq_some_iff] at h
  obtain ⟨quote, _, h⟩ := h
  split at h
  · cases h
  · split at h
    · rw [← (Prod.mk.inj (Option.some.inj h)).2]
      exact ((leads_advance c 1).trans (leads_skipWhile _ _)).trans (leads_advance _ 1)
    · cases h

theorem text_skipSpaces (c : Cursor) : c.skipSpaces.text = c.text := (leads_skipSpaces c).text

theorem text_expect? {word : Text} {c stop : Cursor} (h : c.expect? word = some stop) :
    stop.text = c.text := (leads_expect? h).text

theorem text_wordAndSpaces? {word : Text} {c stop : Cursor} (h : c.wordAndSpaces? word = some stop) :
    stop.text = c.text := (leads_wordAndSpaces? h).text

theorem text_optionalWord (word : Text) (c : Cursor) : (c.optionalWord word).2.text = c.text := by
  unfold optionalWord
  split
  · rename_i h
    exact text_wordAndSpaces? h
  · rfl

theorem text_oneOf? {α : Type} {words : List (Text × α)} {c stop : Cursor} {a : α}
    (h : c.oneOf? words = some (a, stop)) : stop.text = c.text := (leads_oneOf? h).text

/-! ## Words and names -/

/-- A word with white space behind it, and all of the white space. -/
theorem wordAndSpaces?_eq_some {word : Text} {c stop : Cursor} :
    c.wordAndSpaces? word = some stop ↔
      ∃ spaces, spaces ≠ [] ∧ Blank spaces ∧ c.Reads (word ++ spaces) stop ∧
        ∀ x, stop.peek? = some x → isSpace x = false := by
  constructor
  · intro h
    obtain ⟨behind, hword, hspaces⟩ := Option.bind_eq_some_iff.mp h
    rw [expect?_eq_some] at hword
    unfold spaces? at hspaces
    split at hspaces
    · rename_i hspace
      obtain rfl := Option.some.inj hspaces
      refine ⟨behind.after.takeWhile isSpace, ?_, List.all_eq_true.mp List.all_takeWhile,
        hword.trans (reads_skipWhile isSpace behind), fun x => peek?_skipWhile⟩
      cases hafter : behind.after with
      | nil => simp [peek?, hafter] at hspace
      | cons x more =>
        have hx : isSpace x = true := by simpa [peek?, hafter] using hspace
        rw [List.takeWhile_cons_of_pos hx]
        exact List.cons_ne_nil _ _
    · cases hspaces
  · rintro ⟨spaces, hne, hblank, hreads, hstop⟩
    obtain ⟨behind, hword, hspaces⟩ := hreads.split
    obtain ⟨x, more, rfl⟩ := List.exists_cons_of_ne_nil hne
    have hspace : behind.peek?.any isSpace = true := by
      rw [hspaces.peek?]
      exact hblank x List.mem_cons_self
    rw [wordAndSpaces?, expect?_eq_some.mpr hword, Option.bind_some, spaces?, if_pos hspace, skipSpaces,
      skipWhile_of_reads hspaces hblank hstop]

theorem prefix_of_wordAndSpaces? {word : Text} {c stop : Cursor}
    (h : c.wordAndSpaces? word = some stop) : word <+: c.after := by
  obtain ⟨spaces, -, -, hreads, -⟩ := wordAndSpaces?_eq_some.mp h
  exact ⟨spaces ++ stop.after, by rw [hreads.after, List.append_assoc]⟩

section OneOf

variable {α : Type} {word : Text} {a : α} {words : List (Text × α)} {c stop : Cursor}

theorem oneOf?_cons_some (h : c.wordAndSpaces? word = some stop) :
    c.oneOf? ((word, a) :: words) = some (a, stop) := by
  simp [oneOf?, h]

theorem oneOf?_cons_none (h : c.wordAndSpaces? word = none) :
    c.oneOf? ((word, a) :: words) = c.oneOf? words := by
  simp [oneOf?, h]

theorem exists_of_oneOf? (h : c.oneOf? words = some (a, stop)) :
    ∃ word, (word, a) ∈ words ∧ c.wordAndSpaces? word = some stop := by
  obtain ⟨⟨word, value⟩, hmem, hword⟩ := List.exists_of_findSome?_eq_some h
  obtain ⟨next, hnext, he⟩ := Option.map_eq_some_iff.mp hword
  obtain ⟨rfl, rfl⟩ := Prod.mk.inj he
  exact ⟨word, hmem, hnext⟩

end OneOf

/-- A name that a reader passes over as a whole: no identifier character follows it. -/
structure ReadsName (c : Cursor) (name : Text) (behind : Cursor) : Prop where
  isName : IsName name
  reads : c.Reads name behind
  stop : ∀ x, behind.peek? = some x → isIdentChar x = false

section ReadsName

variable {c behind other : Cursor} {name word : Text}

theorem ReadsName.unique (h : c.ReadsName name behind) (h' : c.ReadsName word other) :
    name = word ∧ behind = other := by
  have hname : name = word := by
    calc name = c.after.takeWhile isIdentChar := by
          rw [h.reads.after, takeWhile_append_of_stop h.isName.2 h.stop]
      _ = word := by
          rw [h'.reads.after, takeWhile_append_of_stop h'.isName.2 h'.stop]
  subst hname
  exact ⟨rfl, h.reads.unique h'.reads⟩

theorem identifier?_eq_some :
    c.identifier? = some (name, behind) ↔ Import.isIdentifier name = true ∧ c.ReadsName name behind := by
  constructor
  · intro h
    obtain ⟨hreads, ⟨first, more, rfl, hfirst, hmore⟩, hstop⟩ := name?_eq_some.mp h
    have hname : Import.isIdentifier (first :: more) = true := by
      simpa [Import.isIdentifier, hfirst] using hmore
    exact ⟨hname, Import.isName_of_isIdentifier hname, hreads, hstop⟩
  · rintro ⟨hname, -, hreads, hstop⟩
    refine name?_eq_some.mpr ⟨hreads, ?_, hstop⟩
    cases name with
    | nil => cases hname
    | cons first more =>
      simp only [Import.isIdentifier, Bool.and_eq_true, List.all_eq_true] at hname
      exact ⟨first, more, rfl, hname.1, hname.2⟩

end ReadsName

theorem identifier?_of_isIdentifier {name before rest : Text} (hname : Import.isIdentifier name = true)
    (hrest : ∀ x, rest.head? = some x → isIdentChar x = false) :
    identifier? ⟨before, name ++ rest⟩ = some (name, ⟨name.reverse ++ before, rest⟩) :=
  identifier?_eq_some.mpr
    ⟨hname, Import.isName_of_isIdentifier hname, reads_append before name rest, hrest⟩

/-! ## Gaps -/

/-- White space or a comma stands in front of the place, if anything does. -/
def FollowsGap (c : Cursor) : Prop := ∀ x, c.prev? = some x → isSpace x = true ∨ x = ','

/-- The first character from the place on that is not white space. -/
def nextInk? (c : Cursor) : Option Char := c.skipSpaces.peek?

theorem FollowsGap.skipSpaces {c : Cursor} (h : c.FollowsGap) : c.skipSpaces.FollowsGap := by
  intro x hx
  obtain ⟨spaces, hblank, hreads⟩ := reads_skipSpaces c
  rw [prev?, hreads.before, List.head?_append, List.head?_reverse, Option.or_eq_some_iff] at hx
  rcases hx with hx | ⟨-, hx⟩
  · exact .inl (hblank x (List.mem_of_getLast? hx))
  · exact h x hx

theorem FollowsGap.isIdentChar_prev {c : Cursor} {x : Char} (h : c.FollowsGap) (hx : c.prev? = some x) :
    isIdentChar x = false := by
  rcases h x hx with hspace | rfl
  · exact isIdentChar_of_isSpace hspace
  · decide +kernel

/-- Nothing in front of the place stands against a member. -/
theorem FollowsGap.isFresh {c : Cursor} (h : c.FollowsGap) :
    (!c.startsFresh || c.prev? == some '?') = false := by
  unfold startsFresh
  cases hprev : c.prev? with
  | none => rfl
  | some x =>
    have hmarks : x ≠ '.' ∧ x ≠ '?' := by
      rcases h x hprev with hspace | rfl
      · constructor <;> rintro rfl <;> cases hspace
      · decide
    simp [h.isIdentChar_prev hprev, hmarks.1, hmarks.2]

theorem followsGap_wordAndSpaces? {word : Text} {c stop : Cursor} (h : c.wordAndSpaces? word = some stop) :
    stop.FollowsGap := by
  intro x hx
  obtain ⟨spaces, hne, hblank, hreads, -⟩ := wordAndSpaces?_eq_some.mp h
  rw [prev?, hreads.before, List.reverse_append, List.append_assoc, List.head?_append,
    List.head?_reverse, Option.or_eq_some_iff] at hx
  rcases hx with hx | ⟨hnone, -⟩
  · exact .inl (hblank x (List.mem_of_getLast? hx))
  · exact absurd (List.getLast?_eq_none_iff.mp hnone) hne

theorem followsGap_oneOf? {α : Type} {words : List (Text × α)} {c stop : Cursor} {a : α}
    (h : c.oneOf? words = some (a, stop)) : stop.FollowsGap := by
  obtain ⟨word, -, hword⟩ := exists_of_oneOf? h
  exact followsGap_wordAndSpaces? hword

end Cursor

end ComponentAudit
