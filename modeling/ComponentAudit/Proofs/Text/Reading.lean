import ComponentAudit.Component.Attribute
import ComponentAudit.Proofs.Text.Occurrence

/-! # What a reader passes over

A reader moves a place forward over a stretch of text (`Cursor.Reads`). Stretches add up, and each
small recogniser is characterised by the stretch it passes over: a word, a run of characters of one
kind, a name. -/

namespace ComponentAudit

theorem takeWhile_append_of_stop {p : Char → Bool} {run rest : Text} (hrun : ∀ c ∈ run, p c = true)
    (hstop : ∀ c, rest.head? = some c → p c = false) : (run ++ rest).takeWhile p = run := by
  rw [List.takeWhile_append_of_pos hrun]
  cases rest with
  | nil => simp
  | cons c rest => simp [hstop c rfl]

theorem Text.drop_length_takeWhile (p : Char → Bool) (t : Text) :
    t.drop (t.takeWhile p).length = t.dropWhile p := by
  have h := @List.drop_left _ (t.takeWhile p) (t.dropWhile p)
  rwa [List.takeWhile_append_dropWhile] at h

theorem head?_dropWhile_not {p : Char → Bool} {t : Text} {c : Char}
    (h : (t.dropWhile p).head? = some c) : p c = false := by
  induction t with
  | nil => cases h
  | cons d t ih =>
    rw [List.dropWhile_cons] at h
    split at h
    · exact ih h
    · rename_i hd
      obtain rfl := Option.some.inj h
      simpa using hd

/-- The code points of white space. -/
def spaceCodes : List Nat :=
  [9, 10, 11, 12, 13, 28, 29, 30, 31, 32, 0x85, 0xa0, 0x1680, 0x2000, 0x2001, 0x2002, 0x2003, 0x2004,
    0x2005, 0x2006, 0x2007, 0x2008, 0x2009, 0x200a, 0x2028, 0x2029, 0x202f, 0x205f, 0x3000]

theorem mem_spaceCodes {c : Char} (h : isSpace c = true) : c.toNat ∈ spaceCodes := by
  simp only [isSpace, Bool.or_eq_true, Bool.and_eq_true, decide_eq_true_eq, beq_iff_eq] at h
  simp only [spaceCodes, List.mem_cons, List.not_mem_nil]
  omega

/-- What holds of the characters with these codes holds of white space. -/
@[elab_as_elim]
theorem of_isSpace {p : Char → Prop} {c : Char} (h : isSpace c = true)
    (hcodes : ∀ n ∈ spaceCodes, p (Char.ofNat n)) : p c := by
  have hc := hcodes c.toNat (mem_spaceCodes h)
  rwa [Char.ofNat_toNat] at hc

/-- White space is in no identifier. -/
theorem isIdentChar_of_isSpace {c : Char} (h : isSpace c = true) : isIdentChar c = false :=
  of_isSpace h (by decide +kernel)

/-- A text of white space only. -/
def Blank (t : Text) : Prop := ∀ c ∈ t, isSpace c = true

instance : DecidablePred Blank := fun t => decidable_of_iff (t.all isSpace = true) List.all_eq_true

theorem blank_nil : Blank [] := List.forall_mem_nil _

/-- White space is no other character. -/
theorem beq_eq_false_of_isSpace {c d : Char} (hc : isSpace c = true) (hd : isSpace d = false) :
    (c == d) = false := by
  refine beq_eq_false_iff_ne.mpr fun heq => ?_
  rw [heq, hd] at hc
  cases hc

theorem Blank.not_mem {t : Text} (h : Blank t) {c : Char} (hc : isSpace c = false) : c ∉ t := by
  intro hmem
  rw [h c hmem] at hc
  cases hc

namespace Cursor

/-- A reader moves from a place over some text to another place. -/
structure Reads (c : Cursor) (read : Text) (stop : Cursor) : Prop where
  after : c.after = read ++ stop.after
  before : stop.before = read.reverse ++ c.before

theorem Reads.trans {c d e : Cursor} {r s : Text} (h : c.Reads r d) (h' : d.Reads s e) :
    c.Reads (r ++ s) e where
  after := by rw [h.after, h'.after, List.append_assoc]
  before := by rw [h'.before, h.before, List.reverse_append, List.append_assoc]

theorem Reads.offset {c stop : Cursor} {read : Text} (h : c.Reads read stop) :
    stop.offset = c.offset + read.length := by
  rw [Cursor.offset, h.before, List.length_append, List.length_reverse, Cursor.offset, Nat.add_comm]

theorem Reads.split {c e : Cursor} {r s : Text} (h : c.Reads (r ++ s) e) :
    ∃ d, c.Reads r d ∧ d.Reads s e := by
  refine ⟨⟨r.reverse ++ c.before, s ++ e.after⟩, ⟨?_, rfl⟩, ⟨rfl, ?_⟩⟩
  · rw [h.after, List.append_assoc]
  · rw [h.before, List.reverse_append, List.append_assoc]

theorem Reads.peek? {c d : Cursor} {x : Char} {read : Text} (h : c.Reads (x :: read) d) :
    c.peek? = some x := by
  rw [Cursor.peek?, h.after]
  rfl

/-- A place in front of some text reads it. -/
theorem reads_append (before read rest : Text) :
    Reads ⟨before, read ++ rest⟩ read ⟨read.reverse ++ before, rest⟩ := ⟨rfl, rfl⟩

theorem Reads.unique {c d e : Cursor} {read : Text} (h : c.Reads read d) (h' : c.Reads read e) :
    d = e := by
  obtain ⟨before, after⟩ := d
  obtain ⟨before', after'⟩ := e
  have hafter := h.after.symm.trans h'.after
  have hbefore := h.before.trans h'.before.symm
  rw [List.append_cancel_left_eq] at hafter
  simp only at hafter hbefore
  rw [hafter, hbefore]

theorem expect?_eq_some {word : Text} {c stop : Cursor} :
    c.expect? word = some stop ↔ c.Reads word stop := by
  constructor
  · intro h
    unfold expect? at h
    split at h
    · rename_i hword
      obtain ⟨rest, hrest⟩ := List.isPrefixOf_iff_prefix.mp hword
      rw [← Option.some.inj h]
      exact ⟨by simp [advance, ← hrest], by simp [advance, ← hrest]⟩
    · cases h
  · intro h
    have hstarts : c.startsWith word = true :=
      List.isPrefixOf_iff_prefix.mpr ⟨stop.after, h.after.symm⟩
    have hreads : c.Reads word (c.advance word.length) := by
      refine ⟨?_, ?_⟩ <;> simp [advance, h.after]
    rw [expect?, if_pos hstarts, hreads.unique h]

theorem reads_skipWhile (p : Char → Bool) (c : Cursor) :
    c.Reads (c.after.takeWhile p) (c.skipWhile p) where
  after := by simp [skipWhile]
  before := rfl

theorem skipWhile_of_reads {p : Char → Bool} {c stop : Cursor} {run : Text} (h : c.Reads run stop)
    (hrun : ∀ x ∈ run, p x = true) (hstop : ∀ x, stop.peek? = some x → p x = false) :
    c.skipWhile p = stop := by
  have hreads := reads_skipWhile p c
  rw [h.after, takeWhile_append_of_stop hrun hstop] at hreads
  exact hreads.unique h

theorem peek?_skipWhile {p : Char → Bool} {c : Cursor} {x : Char}
    (h : (c.skipWhile p).peek? = some x) : p x = false :=
  head?_dropWhile_not h

theorem reads_skipSpaces (c : Cursor) : ∃ spaces, Blank spaces ∧ c.Reads spaces c.skipSpaces :=
  ⟨_, List.all_eq_true.mp List.all_takeWhile, reads_skipWhile isSpace c⟩

/-- White space ends at the first character of what is read behind it. -/
theorem skipSpaces_of_reads {c d e : Cursor} {spaces read : Text} {x : Char} (h : c.Reads spaces d)
    (hblank : Blank spaces) (hread : d.Reads (x :: read) e) (hx : isSpace x = false) :
    c.skipSpaces = d := by
  refine skipWhile_of_reads h hblank fun y hy => ?_
  rw [hread.peek?] at hy
  rw [← Option.some.inj hy, hx]

/-- A name is a first character of one kind and a run of another that goes no further. -/
theorem name?_eq_some {head tail : Char → Bool} {c stop : Cursor} {name : Text} :
    c.name? head tail = some (name, stop) ↔
      c.Reads name stop ∧ (∃ first more, name = first :: more ∧ head first = true ∧
        ∀ x ∈ more, tail x = true) ∧ ∀ x, stop.peek? = some x → tail x = false := by
  constructor
  · intro h
    unfold name? at h
    split at h
    · cases h
    · rename_i first rest hafter
      split at h
      · rename_i hhead
        simp only [Option.some.injEq, Prod.mk.injEq] at h
        obtain ⟨rfl, rfl⟩ := h
        have hfirst : c.Reads [first] (c.advance 1) := by
          refine ⟨?_, ?_⟩ <;> simp [advance, hafter]
        have hrun := reads_skipWhile tail (c.advance 1)
        have hrest : (c.advance 1).after = rest := by simp [advance, hafter]
        rw [hrest] at hrun
        exact ⟨hfirst.trans hrun, ⟨first, _, rfl, hhead, List.all_eq_true.mp List.all_takeWhile⟩,
          fun x hx => peek?_skipWhile hx⟩
      · cases h
  · rintro ⟨hreads, ⟨first, more, rfl, hhead, htail⟩, hstop⟩
    have hafter : c.after = first :: (more ++ stop.after) := hreads.after
    have hmore : (c.advance 1).Reads more stop := by
      refine ⟨?_, ?_⟩
      · simp [advance, hafter]
      · simp [advance, hafter, hreads.before]
    simp only [name?, hafter, hhead, if_true, skipWhile_of_reads hmore htail hstop,
      takeWhile_append_of_stop htail hstop]

/-- A place inside a stretch parts it in two. -/
theorem Reads.inside {c stop place : Cursor} {read : Text} (h : c.Reads read stop)
    (htext : c.text = place.text) (hle : c.offset ≤ place.offset) (hin : place.offset < stop.offset) :
    ∃ front back, read = front ++ back ∧ front.length = place.offset - c.offset ∧ back ≠ [] ∧
      place.after = back ++ stop.after := by
  have hoffset := h.offset
  refine ⟨read.take (place.offset - c.offset), read.drop (place.offset - c.offset),
    (List.take_append_drop _ read).symm, ?_, ?_, ?_⟩
  · rw [List.length_take]
    omega
  · rw [ne_eq, List.drop_eq_nil_iff]
    omega
  · have hplace : place.after = c.text.drop place.offset := by
      rw [htext, text, Cursor.offset, ← List.length_reverse, List.drop_left]
    have hc : c.text.drop c.offset = c.after := by
      rw [text, Cursor.offset, ← List.length_reverse, List.drop_left]
    have hsum : place.offset = c.offset + (place.offset - c.offset) := by omega
    rw [hplace, hsum, ← List.drop_drop, hc, h.after, List.drop_append_of_le_length (by omega)]
    congr 2
    omega

/-- A match cannot reach over a character that it holds nowhere but at its start. -/
theorem Reads.clear {c stop place : Cursor} {read : Text} (h : c.Reads read stop)
    (htext : c.text = place.text) (hlt : c.offset < place.offset) {x : Char}
    (hx : place.peek? = some x) (hnot : x ∉ read.tail) : stop.offset ≤ place.offset := by
  by_cases hin : place.offset < stop.offset
  · exfalso
    obtain ⟨front, back, rfl, hfront, hback, hafter⟩ := h.inside htext (Nat.le_of_lt hlt) hin
    obtain ⟨d, back, rfl⟩ := List.exists_cons_of_ne_nil hback
    rw [Cursor.peek?, hafter] at hx
    obtain rfl := Option.some.inj hx
    cases front with
    | nil =>
      simp only [List.length_nil] at hfront
      omega
    | cons e front => exact hnot (by simp)
  · omega

end Cursor

end ComponentAudit
