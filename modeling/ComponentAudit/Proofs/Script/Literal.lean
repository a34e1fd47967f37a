import ComponentAudit.Proofs.Text.Slice
import ComponentAudit.Text.Bracket
import Mathlib.Data.List.Induction
import Mathlib.Data.Nat.Init

/-! # String literals

A reader of script text keeps the quote of the literal it is in and whether the next character is escaped.
Two rules say what a backslash escapes: the character behind it, another backslash included (`escaping`),
or the character behind it even if the backslash is escaped itself (`adjacent`). Readers by the two rules
stay in step until a literal ends behind a backslash (`inStep_slice`), and there they part
(`read_behind`). -/

namespace ComponentAudit

theorem ne_backslash_of_isQuote {c : Char} (h : isQuote c = true) : (c == '\\') = false := by
  simp only [isQuote, Bool.or_eq_true, beq_iff_eq] at h
  obtain (rfl | rfl) | rfl := h <;> decide

/-- Whether a literal escapes its next character, given whether it escapes this one. -/
abbrev EscapeRule := Bool → Char → Bool

/-- A backslash escapes the character behind it, another backslash included. -/
def escaping : EscapeRule := fun escaped c => !escaped && c == '\\'

/-- A backslash escapes the character behind it, even if the backslash is escaped itself. -/
def adjacent : EscapeRule := fun _ c => c == '\\'

/-- Where a reader of script text stands: outside string literals, or inside one. -/
inductive LiteralMode where
  | outside
  | inside (quote : Char) (escaped : Bool)
  deriving DecidableEq

namespace LiteralMode

/-- The mode behind one more character. A quote opens a literal, and the same quote closes it unless it
is escaped. -/
def next (rule : EscapeRule) : LiteralMode → Char → LiteralMode
  | .outside, c => if isQuote c then .inside c false else .outside
  | .inside q escaped, c => if c == q && !escaped then .outside else .inside q (rule escaped c)

/-- The mode behind a text. -/
def read (rule : EscapeRule) (mode : LiteralMode) (t : Text) : LiteralMode := t.foldl (next rule) mode

section

variable {rule : EscapeRule} {mode : LiteralMode} {c q : Char} {escaped : Bool} {t : Text}

theorem next_outside (h : isQuote c = false) : next rule .outside c = .outside := by
  rw [next, h]
  rfl

/-- A literal was opened by the last character, or it goes on. -/
theorem next_eq_inside (h : next rule mode c = .inside q escaped) :
    mode = .outside ∧ isQuote c = true ∧ q = c ∧ escaped = false ∨
      ∃ before, mode = .inside q before ∧ escaped = rule before c := by
  cases mode with
  | outside =>
    rw [next] at h
    split at h
    · rename_i hquote
      cases h
      exact .inl ⟨rfl, hquote, rfl, rfl⟩
    · cases h
  | inside p before =>
    rw [next] at h
    split at h
    · cases h
    · cases h
      exact .inr ⟨before, rfl, rfl⟩

theorem read_append (rule : EscapeRule) (mode : LiteralMode) (s t : Text) :
    mode.read rule (s ++ t) = (mode.read rule s).read rule t := List.foldl_append

theorem read_concat (rule : EscapeRule) (mode : LiteralMode) (t : Text) (c : Char) :
    mode.read rule (t ++ [c]) = (mode.read rule t).next rule c := read_append rule mode t [c]

/-- Only quotes open literals. -/
theorem isQuote_of_read (h : outside.read rule t = .inside q escaped) : isQuote q = true := by
  induction t using List.reverseRecOn generalizing q escaped with
  | nil => cases h
  | append_singleton t c ih =>
    rw [read_concat] at h
    obtain ⟨-, hquote, rfl, -⟩ | ⟨before, hmode, -⟩ := next_eq_inside h
    · exact hquote
    · exact ih hmode

/-- By the second rule, the next character of a literal is escaped behind every backslash. -/
theorem escaped_of_read_adjacent (h : outside.read adjacent t = .inside q escaped) :
    escaped = (t.getLast? == some '\\') := by
  obtain rfl | ⟨t, c, rfl⟩ := t.eq_nil_or_concat
  · cases h
  · rw [List.concat_eq_append] at h ⊢
    rw [read_concat] at h
    rw [List.getLast?_concat]
    obtain ⟨-, hquote, -, rfl⟩ | ⟨before, -, rfl⟩ := next_eq_inside h
    · exact (ne_backslash_of_isQuote hquote).symm
    · rfl

end

end LiteralMode

open LiteralMode (outside)

/-- At `place` a literal ends right behind a backslash, which is escaped, therefore. -/
def EndsEscaped (t : Text) (start place : Nat) : Prop :=
  ∃ q ∈ t[place]?, outside.read escaping (t.slice start place) = .inside q false ∧
    (t.slice start place).getLast? = some '\\'

instance (t : Text) (start place : Nat) : Decidable (EndsEscaped t start place) :=
  decidable_of_iff (t[place]?.any fun q =>
      outside.read escaping (t.slice start place) == .inside q false &&
        (t.slice start place).getLast? == some '\\') <| by
    simp [EndsEscaped, Option.any_eq_true]

variable {t : Text} {start place : Nat}

theorem EndsEscaped.lt (h : EndsEscaped t start place) : start < place := by
  obtain ⟨q, -, -, hlast⟩ := h
  by_contra hle
  rw [Text.slice, Nat.sub_eq_zero_of_le (by omega), List.take_zero] at hlast
  cases hlast

theorem EndsEscaped.lt_length (h : EndsEscaped t start place) : place < t.length := by
  obtain ⟨q, hq, -, -⟩ := h
  exact (List.getElem?_eq_some_iff.mp hq).1

/-! ## The two rules in step -/

/-- Modes that differ at most in what the first one alone takes for escaped. -/
inductive InStep : LiteralMode → LiteralMode → Prop
  | outside : InStep .outside .outside
  | inside (q : Char) {marked escaped : Bool} (h : escaped = true → marked = true) :
      InStep (.inside q marked) (.inside q escaped)

/-- Only a quote behind an escaped backslash parts the rules. -/
theorem InStep.next {mode mode' : LiteralMode} (h : InStep mode mode') {c : Char}
    (hc : ¬(mode = .inside c true ∧ mode' = .inside c false)) :
    InStep (mode.next adjacent c) (mode'.next escaping c) := by
  cases h with
  | outside =>
    simp only [LiteralMode.next]
    split
    · exact .inside c id
    · exact .outside
  | @inside q marked escaped h =>
    by_cases hq : c = q
    · subst hq
      cases escaped with
      | true =>
        rw [h rfl]
        simp only [LiteralMode.next, beq_self_eq_true, Bool.not_true, Bool.and_false]
        exact .inside c fun hnext => by cases hnext
      | false =>
        cases marked with
        | true => exact absurd ⟨rfl, rfl⟩ hc
        | false =>
          simp only [LiteralMode.next, beq_self_eq_true, Bool.not_false, Bool.and_self]
          exact .outside
    · have hq : (c == q) = false := beq_eq_false_iff_ne.mpr hq
      simp only [LiteralMode.next, hq, Bool.false_and]
      exact .inside q fun hnext => (Bool.and_eq_true_iff.mp hnext).2

/-- The rules stay in step up to a literal that ends behind a backslash. -/
theorem inStep_slice (hle : start ≤ place) (h : ∀ m < place, ¬EndsEscaped t start m) :
    InStep (outside.read adjacent (t.slice start place))
      (outside.read escaping (t.slice start place)) := by
  induction place, hle using Nat.le_induction with
  | base =>
    rw [Text.slice_self]
    exact .outside
  | succ place hle ih =>
    have hstep := ih fun m hm => h m (by omega)
    rw [Text.slice_succ hle, LiteralMode.read_append, LiteralMode.read_append]
    cases hc : t[place]? with
    | none => exact hstep
    | some c =>
      refine hstep.next fun ⟨hmarked, hescaped⟩ => ?_
      have hlast := (LiteralMode.escaped_of_read_adjacent hmarked).symm
      exact h place (Nat.lt_succ_self place) ⟨c, hc, hescaped, eq_of_beq hlast⟩

/-- Behind the first literal that ends behind a backslash, the readers part: by the second rule the
literal goes on. -/
theorem read_behind (hends : EndsEscaped t start place) (h : ∀ m < place, ¬EndsEscaped t start m) :
    outside.read escaping (t.slice start (place + 1)) = .outside ∧
      ∃ q marked, outside.read adjacent (t.slice start (place + 1)) = .inside q marked := by
  have hle := Nat.le_of_lt hends.lt
  obtain ⟨q, hq, hread, hlast⟩ := hends
  have hstep := inStep_slice hle h
  rw [hread] at hstep
  cases hmode : outside.read adjacent (t.slice start place) with
  | outside =>
    rw [hmode] at hstep
    cases hstep
  | inside p marked =>
    have hmarked := LiteralMode.escaped_of_read_adjacent hmode
    rw [hlast, beq_self_eq_true] at hmarked
    rw [hmode, hmarked] at hstep
    cases hstep
    rw [Text.slice_succ hle, hq, Option.toList_some, LiteralMode.read_concat, LiteralMode.read_concat, hread,
      hmode, hmarked]
    refine ⟨?_, q, q == '\\', ?_⟩
    · rw [LiteralMode.next, beq_self_eq_true]
      rfl
    · rw [LiteralMode.next, beq_self_eq_true]
      rfl

end ComponentAudit
