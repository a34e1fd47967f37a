import ComponentAudit.Component.Analysis
import ComponentAudit.Proofs.Text.Line

/-! # Lines, columns and line counts agree

Three computations tell where something stands in a component: the search among the starts of its
lines, the search for the line feeds on either side of an offset, and the number of its line feeds.
They agree for every text and every whole number (`LineIndex.faithful_ofText`). -/

namespace ComponentAudit

theorem length_lineStartsFrom (offset : Nat) (t : Text) :
    (lineStartsFrom offset t).length = t.count '\n' := by
  induction t generalizing offset with
  | nil => rfl
  | cons c t ih =>
    rw [lineStartsFrom]
    by_cases hc : c = '\n'
    · rw [if_pos (by simpa using hc), List.length_cons, ih, hc, List.count_cons_self]
    · rw [if_neg (by simpa using hc), ih, List.count_cons_of_ne hc]

theorem lineCount_ofText (t : Text) : (LineIndex.ofText t).lineCount = t.count '\n' + 1 := by
  rw [LineIndex.lineCount, LineIndex.ofText, List.length_cons, length_lineStartsFrom]

/-- The statistics come last and count the line feeds of the whole file. -/
theorem totalLines_analyze (t filePath : Text) (options : Options) :
    (analyze t filePath options).statistics.get "total_lines" = (t.count '\n' + 1 : Nat) := rfl

namespace LineIndex

/-- An index that tells the lines of a text. The places of the text are the numbers up to its length;
any other whole number stands for the nearer end. -/
structure Faithful (index : LineIndex) (t : Text) : Prop where
  /-- In front of a place, the line feeds are counted, and the characters behind the last of them. -/
  counted : ∀ offset : Nat, offset ≤ t.length →
    (index.locate offset).line = (t.take offset).count '\n' + 1 ∧
      (index.locate offset).column =
        ((t.take offset).reverse.takeWhile (· != '\n')).length + 1
  increasing : ∀ a b : Nat, a < b → b ≤ t.length → (index.locate a).Before (index.locate b)
  injective : ∀ a b : Nat, a ≤ t.length → b ≤ t.length → index.locate a = index.locate b → a = b
  clamped : ∀ offset : Int, index.locate offset = index.locate (max 0 (min offset t.length))
  /-- The context is the trimmed line of that number. -/
  context : ∀ offset : Int,
    ((Text.splitOn '\n' t)[(index.locate offset).line - 1]?).map Text.trim = some (contextAt t offset)
  lineCount : ∀ filePath options,
    (analyze t filePath options).statistics.get "total_lines" = index.lineCount

theorem locate_eq_positionAt (t : Text) (offset : Int) :
    (ofText t).locate offset = t.positionAt offset.toNat :=
  position_eq_positionAt t offset.toNat

/-- A whole number and the end of the text that is nearer to it have one position. -/
theorem locate_clamp (t : Text) (offset : Int) :
    (ofText t).locate offset = (ofText t).locate (max 0 (min offset t.length)) := by
  rw [locate_eq_positionAt, locate_eq_positionAt]
  by_cases hpast : t.length ≤ offset.toNat
  · have hend : (max 0 (min offset t.length)).toNat = t.length := by omega
    rw [Text.positionAt_of_length_le hpast, hend]
  · have hsame : (max 0 (min offset t.length)).toNat = offset.toNat := by omega
    rw [hsame]

/-- Lines and columns are exact, and they agree with the lines that contexts show and with the number
of lines in the statistics. -/
theorem faithful_ofText (t : Text) : (ofText t).Faithful t where
  counted offset _ := by
    rw [locate_eq_positionAt, Int.toNat_natCast]
    exact ⟨rfl, rfl⟩
  increasing a b hab hb := by
    rw [locate_eq_positionAt, locate_eq_positionAt]
    exact Text.positionAt_before hab hb
  injective a b ha hb h := by
    rw [locate_eq_positionAt, locate_eq_positionAt] at h
    exact Text.positionAt_inj ha hb h
  clamped := locate_clamp t
  context offset := by
    rw [locate_eq_positionAt]
    exact lineContext_eq t offset.toNat
  lineCount filePath options := by rw [totalLines_analyze, lineCount_ofText]

end LineIndex

end ComponentAudit
