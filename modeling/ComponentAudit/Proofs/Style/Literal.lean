import ComponentAudit.Proofs.Style.Concatenation
import ComponentAudit.Proofs.Text.Mask
import ComponentAudit.Proofs.Text.Reading
import Mathlib.Data.List.Induction

/-! # Comments in strings

Style text is masked without regard to strings. A reader that knows strings (`lex`) stays in step with
the masking up to the first string in which a comment seems to open, and there the masking changes the
string. So strings are kept exactly if no comment seems to open in any of them, and then exactly the
comments are blanked out (`literals_kept_iff`). -/

namespace ComponentAudit.Comment

open Sheet (isStyleQuote)

/-! ## Style text with strings -/

/-- What a character of a style text belongs to. -/
inductive Lexical where
  | comment
  | literal
  | other
  deriving DecidableEq

/-- Where a reader of style text stands that knows strings. -/
inductive LexMode where
  | code
  | literal (quote : Char)
  /-- Behind a backslash in a string. -/
  | escaped (quote : Char)
  | line
  | block

/-- Whether the current line is blank behind one more character. -/
def stillBlank (fresh : Bool) (c : Char) : Bool := c == '\n' || (fresh && isSpace c)

/-- What the characters of a text belong to, from a given mode on; `fresh` says that the current line is
blank so far. A quote outside of comments opens a string, and the next such quote without a backslash in
front of it closes the string. -/
def lexFrom : LexMode → (fresh : Bool) → Text → List Lexical
  | _, _, [] => []
  | .code, _, '/' :: '*' :: rest => .comment :: .comment :: lexFrom .block false rest
  | .code, true, '/' :: '/' :: rest => .comment :: .comment :: lexFrom .line false rest
  | .code, fresh, c :: rest =>
    if isStyleQuote c then .literal :: lexFrom (.literal c) (stillBlank fresh c) rest
    else .other :: lexFrom .code (stillBlank fresh c) rest
  | .literal q, fresh, c :: rest =>
    let next := if c == '\\' then .escaped q else if c == q then .code else .literal q
    .literal :: lexFrom next (stillBlank fresh c) rest
  | .escaped q, fresh, c :: rest => .literal :: lexFrom (.literal q) (stillBlank fresh c) rest
  | .line, fresh, c :: rest =>
    if c == '\n' then .other :: lexFrom .code (stillBlank fresh c) rest
    else .comment :: lexFrom .line (stillBlank fresh c) rest
  | .block, _, '*' :: '/' :: rest => .comment :: .comment :: lexFrom .code false rest
  | .block, fresh, c :: rest => .comment :: lexFrom .block (stillBlank fresh c) rest

/-- What the characters of a style text belong to. -/
def lex (t : Text) : List Lexical := lexFrom .code true t

/-- A style text with exactly its comments blanked out. -/
def hide (kinds : List Lexical) (t : Text) : Text :=
  kinds.zipWith (fun kind c => if kind = .comment then blank c else c) t

/-- A character of a string. -/
def InLiteral (t : Text) (offset : Nat) : Prop := (lex t)[offset]? = some .literal

instance (t : Text) (offset : Nat) : Decidable (InLiteral t offset) :=
  inferInstanceAs (Decidable (_ = _))

/-- A place where a comment opens if it is not in a string: at `/*`, or at `//` behind a blank start of
the line. -/
def OpensComment (t : Text) (offset : Nat) : Prop :=
  "/*".toList <+: t.drop offset ∨
    "//".toList <+: t.drop offset ∧ Blank ((t.take offset).reverse.takeWhile (· != '\n'))

/-! ## The start of the line -/

/-- `OpensComment` behind a text whose last line is blank or not. -/
def OpensFrom (fresh : Bool) (t : Text) (offset : Nat) : Prop :=
  "/*".toList <+: t.drop offset ∨
    "//".toList <+: t.drop offset ∧ (t.take offset).foldl stillBlank fresh = true

theorem foldl_stillBlank (t : Text) :
    t.foldl stillBlank true = true ↔ Blank (t.reverse.takeWhile (· != '\n')) := by
  induction t using List.reverseRecOn with
  | nil => simp [Blank]
  | append_singleton t c ih =>
    rw [List.foldl_append, List.foldl_cons, List.foldl_nil, List.reverse_append, List.reverse_singleton,
      List.singleton_append, stillBlank]
    by_cases hc : c = '\n'
    · simp [hc, Blank]
    · rw [List.takeWhile_cons_of_pos (by simpa using hc), Blank, List.forall_mem_cons]
      simp only [beq_eq_false_iff_ne.mpr hc, Bool.false_or, Bool.and_eq_true, ih]
      exact And.comm

theorem opensFrom_true (t : Text) (offset : Nat) : OpensFrom true t offset ↔ OpensComment t offset := by
  rw [OpensFrom, OpensComment, foldl_stillBlank]

/-- What opens no comment is kept by the masking. -/
theorem maskStyleFrom_of_not_opens {fresh : Bool} {c : Char} {t : Text}
    (h : ¬ OpensFrom fresh (c :: t) 0) :
    maskStyleFrom .code fresh (c :: t) = c :: maskStyleFrom .code (stillBlank fresh c) t := by
  refine maskStyleFrom_cons ?_ ?_
  · rintro rfl hhead
    obtain ⟨rest, rfl⟩ := List.head?_eq_some_iff.mp hhead
    exact h (.inl ⟨rest, rfl⟩)
  · rintro rfl rfl hhead
    obtain ⟨rest, rfl⟩ := List.head?_eq_some_iff.mp hhead
    exact h (.inr ⟨⟨rest, rfl⟩, rfl⟩)

/-- Where a comment seems to open, the masking changes the first character. -/
theorem maskStyleFrom_of_opens {fresh : Bool} {c : Char} {t : Text} (h : OpensFrom fresh (c :: t) 0) :
    ∃ masked, maskStyleFrom .code fresh (c :: t) = ' ' :: masked ∧ c ≠ ' ' := by
  obtain ⟨rest, hrest⟩ | ⟨⟨rest, hrest⟩, hfresh⟩ := h
  · obtain ⟨rfl, rfl⟩ := List.cons.inj hrest
    exact ⟨_, maskStyleFrom.eq_2 .., by decide⟩
  · obtain ⟨rfl, rfl⟩ := List.cons.inj hrest
    obtain rfl : fresh = true := hfresh
    exact ⟨_, maskStyleFrom.eq_3 .., by decide⟩

/-! ## Reader and masking in step -/

/-- No comment seems to open in a literal. -/
def Clear (kinds : List Lexical) (fresh : Bool) (t : Text) : Prop :=
  ∀ i, kinds[i]? = some .literal → ¬ OpensFrom fresh t i

/-- Every literal is kept. -/
def Kept (kinds : List Lexical) (t masked : Text) : Prop :=
  ∀ i : Nat, kinds[i]? = some .literal → masked[i]? = t[i]?

/-- The masking either blanks out exactly the comments, or it changes a literal in which a comment seems
to open. -/
def Agrees (kinds : List Lexical) (fresh : Bool) (t masked : Text) : Prop :=
  Clear kinds fresh t ∧ masked = hide kinds t ∨ ¬ Clear kinds fresh t ∧ ¬ Kept kinds t masked

section

variable {k : Lexical} {kinds : List Lexical} {fresh : Bool} {c head : Char} {t masked : Text}

theorem clear_cons (hopens : k = .literal → ¬ OpensFrom fresh (c :: t) 0) :
    Clear (k :: kinds) fresh (c :: t) ↔ Clear kinds (stillBlank fresh c) t := by
  constructor
  · intro h i hi
    exact h (i + 1) hi
  · rintro h (_ | i) hi
    · exact hopens (Option.some.inj hi)
    · exact h i hi

theorem kept_cons (hhead : k = .literal → head = c) :
    Kept (k :: kinds) (c :: t) (head :: masked) ↔ Kept kinds t masked := by
  constructor
  · intro h i hi
    exact h (i + 1) hi
  · rintro h (_ | i) hi
    · exact congrArg some (hhead (Option.some.inj hi))
    · exact h i hi

/-- A character that reader and masking take for the same. -/
theorem Agrees.cons (h : Agrees kinds (stillBlank fresh c) t masked)
    (hhead : head = if k = .comment then blank c else c)
    (hopens : k = .literal → ¬ OpensFrom fresh (c :: t) 0) :
    Agrees (k :: kinds) fresh (c :: t) (head :: masked) := by
  rw [Agrees, clear_cons hopens, kept_cons fun hk => by rw [hhead, hk, if_neg (by decide)]]
  exact h.imp_left fun ⟨hclear, hmasked⟩ => ⟨hclear, by rw [hhead, hmasked]; rfl⟩

/-- A comment that seems to open in a literal. -/
theorem agrees_of_opens (hopens : OpensFrom fresh (c :: t) 0) (hhead : head ≠ c) :
    Agrees (.literal :: kinds) fresh (c :: t) (head :: masked) :=
  .inr ⟨fun h => h 0 rfl hopens, fun h => hhead (Option.some.inj (h 0 rfl))⟩

end

/-- The mode of the masking while the reader is in a given mode. -/
def LexMode.masking : LexMode → StyleMode
  | .code | .literal _ | .escaped _ => .code
  | .line => .line
  | .block => .block

/-- A mark of two characters that opens or closes a comment. -/
theorem Agrees.delimiter {kinds : List Lexical} {c d : Char} {t masked : Text}
    (h : Agrees kinds false t masked) (hc : blank c = ' ') (hd : blank d = ' ')
    (hink : isSpace d = false) (fresh : Bool) :
    Agrees (.comment :: .comment :: kinds) fresh (c :: d :: t) (' ' :: ' ' :: masked) := by
  have hd' : stillBlank (stillBlank fresh c) d = false := by
    have hline : d ≠ '\n' := by
      rintro rfl
      exact absurd hd (by decide)
    rw [stillBlank, hink, Bool.and_false, Bool.or_false, beq_eq_false_iff_ne]
    exact hline
  rw [← hd'] at h
  exact (h.cons hd.symm (by simp)).cons hc.symm (by simp)

/-- Within a string the masking reads code. -/
theorem agrees_literal {kinds : List Lexical} {fresh : Bool} {c : Char} {t : Text}
    (h : Agrees kinds (stillBlank fresh c) t (maskStyleFrom .code (stillBlank fresh c) t)) :
    Agrees (.literal :: kinds) fresh (c :: t) (maskStyleFrom .code fresh (c :: t)) := by
  by_cases hopens : OpensFrom fresh (c :: t) 0
  · obtain ⟨masked, hmasked, hc⟩ := maskStyleFrom_of_opens hopens
    rw [hmasked]
    exact agrees_of_opens hopens hc.symm
  · rw [maskStyleFrom_of_not_opens hopens]
    exact h.cons rfl fun _ => hopens

/-- Whatever mode the reader is in, the masking of the rest agrees with it: by induction on what the
reader reads, and within a string the two part where a comment seems to open. -/
theorem agrees_lexFrom (mode : LexMode) (fresh : Bool) (t : Text) :
    Agrees (lexFrom mode fresh t) fresh t (maskStyleFrom mode.masking fresh t) := by
  fun_induction lexFrom mode fresh t with
  | case1 fresh mode =>
    rw [maskStyleFrom]
    exact .inl ⟨fun i hi => by simp at hi, rfl⟩
  | case2 fresh rest ih =>
    rw [LexMode.masking, maskStyleFrom]
    exact ih.delimiter rfl rfl rfl fresh
  | case3 rest ih =>
    rw [LexMode.masking, maskStyleFrom]
    exact ih.delimiter rfl rfl rfl true
  | case4 fresh c rest hblock hline hquote ih => exact agrees_literal ih
  | case5 fresh c rest hblock hline hquote ih =>
    rw [LexMode.masking, maskStyleFrom.eq_4 _ _ _ hblock hline]
    exact ih.cons rfl (by simp)
  | case6 quote fresh c rest next ih =>
    have hnext : next.masking = .code := by
      grind [LexMode.masking]
    rw [hnext] at ih
    exact agrees_literal ih
  | case7 quote fresh c rest ih => exact agrees_literal ih
  | case8 fresh c rest hbreak ih =>
    rw [LexMode.masking, maskStyleFrom, if_pos hbreak, hbreak]
    obtain rfl := eq_of_beq hbreak
    exact ih.cons rfl (by simp)
  | case9 fresh c rest hbreak ih =>
    rw [LexMode.masking, maskStyleFrom, if_neg hbreak,
      maskStyleFrom_of_comment (by simp) _ (stillBlank fresh c)]
    exact ih.cons rfl (by simp)
  | case10 fresh rest ih =>
    rw [LexMode.masking, maskStyleFrom]
    exact ih.delimiter rfl rfl rfl fresh
  | case11 fresh c rest hclose ih =>
    rw [LexMode.masking, maskStyleFrom.eq_7 _ _ _ hclose,
      maskStyleFrom_of_comment (by simp) _ (stillBlank fresh c)]
    exact ih.cons rfl (by simp)

/-- To blank out comments changes no string. -/
theorem kept_hide (kinds : List Lexical) (t : Text) : Kept kinds t (hide kinds t) := by
  intro i hi
  rw [hide, List.getElem?_zipWith, hi]
  cases t[i]? <;> rfl

/-! ## Strings and comments -/

/-- The masking keeps every string if and only if no comment seems to open in one, and that is so if and
only if it blanks out exactly the comments. -/
theorem literals_kept_iff (t : Text) :
    ((∀ i, InLiteral t i → (maskStyle t)[i]? = t[i]?) ↔
        ∀ i, InLiteral t i → ¬ OpensComment t i) ∧
      ((∀ i, InLiteral t i → ¬ OpensComment t i) ↔ maskStyle t = hide (lex t) t) := by
  have hclear : (∀ i, InLiteral t i → ¬ OpensComment t i) ↔ Clear (lex t) true t :=
    forall₂_congr fun i _ => not_congr (opensFrom_true t i).symm
  rw [hclear]
  change (Kept (lex t) t (maskStyle t) ↔ _) ∧ _
  obtain ⟨hclear, hmasked⟩ | ⟨hclear, hkept⟩ := agrees_lexFrom .code true t
  · have hmasked : maskStyle t = hide (lex t) t := hmasked
    rw [hmasked]
    exact ⟨iff_of_true (kept_hide _ _) hclear, iff_of_true hclear rfl⟩
  · have hkept : ¬ Kept (lex t) t (maskStyle t) := hkept
    refine ⟨iff_of_false hkept hclear, iff_of_false hclear fun hmasked => hkept ?_⟩
    rw [hmasked]
    exact kept_hide _ _

/-- A comment seems to open in the first string of this text and to close in the second one. -/
def twoStrings : Text := "a\x7bcontent:\"/*\"\x7db\x7bcontent:\"*/\"\x7d"

/-- Two rules with a string each: the first string is changed, and the second rule is lost. -/
theorem literal_blanked :
    InLiteral twoStrings 11 ∧ twoStrings[11]? = some '/' ∧ (maskStyle twoStrings)[11]? = some ' ' ∧
      (Sheet.ofText twoStrings).rules.map (·.selectorText) = [("a" : Text)] := by
  refine ⟨?_, ?_, ?_, ?_⟩
  · decide
  · decide
  · decide
  · decide +kernel

end ComponentAudit.Comment
