import ComponentAudit.Proofs.Text.Mask

/-! # What masking keeps

Masking keeps the length of a text and its line feeds, and every character is kept or becomes a blank
(`Framed`). Masked script text has no comments left: the blanks of a comment open nothing, and what is
kept is read as before, so masking it once more changes nothing (`masking_framed`). -/

namespace ComponentAudit

/-- A text of the length of another one and with its line feeds, whose characters are those of the other
one or blanks. -/
structure Framed (t masked : Text) : Prop where
  length_eq : masked.length = t.length
  lineFeed_iff : ∀ offset : Nat, masked[offset]? = some '\n' ↔ t[offset]? = some '\n'
  kept_or_blank : ∀ offset : Nat, masked[offset]? = t[offset]? ∨ masked[offset]? = some ' '

theorem MaskOf.framed {t masked : Text} (h : MaskOf t masked) : Framed t masked where
  length_eq := h.length_eq
  lineFeed_iff offset := by
    induction h generalizing offset with
    | nil => exact Iff.rfl
    | cons hc _ ih =>
      cases offset with
      | zero =>
        obtain rfl | ⟨rfl, hne⟩ := hc
        · exact Iff.rfl
        · have hblank : (' ' : Char) ≠ '\n' := by decide
          exact iff_of_false (fun heq => hblank (Option.some.inj heq)) fun heq =>
            hne (Option.some.inj heq)
      | succ offset => exact ih offset
  kept_or_blank offset := by
    induction h generalizing offset with
    | nil => exact .inl rfl
    | cons hc _ ih =>
      cases offset with
      | zero => exact hc.imp (congrArg some) fun hblank => congrArg some hblank.1
      | succ offset => exact ih offset

namespace Comment

/-! ## Masked script text -/

/-- How a reader of the masked text stands where the masking stood in a given mode: comments are blanks
to it. -/
def ScriptMode.masked : ScriptMode → ScriptMode
  | .literal q => .literal q
  | .code | .line | .block => .code

/-- A character of code that opens no comment is kept. -/
theorem maskScriptFrom_code {c : Char} {rest : Text} (hline : c = '/' → rest.head? ≠ some '/')
    (hblock : c = '/' → rest.head? ≠ some '*') :
    maskScriptFrom .code (c :: rest) =
      c :: maskScriptFrom (if isQuote c then .literal c else .code) rest := by
  rw [maskScriptFrom.eq_4]
  · rintro tail rfl rfl
    exact hline rfl rfl
  · rintro tail rfl rfl
    exact hblock rfl rfl

theorem blank_eq (c : Char) : blank c = '\n' ∨ blank c = ' ' := by
  unfold blank
  split
  · exact .inl rfl
  · exact .inr rfl

/-- What a character of a comment becomes opens nothing. -/
theorem maskScriptFrom_blank (c : Char) (rest : Text) :
    maskScriptFrom .code (blank c :: rest) = blank c :: maskScriptFrom .code rest := by
  have hslash : blank c ≠ '/' := by
    obtain h | h := blank_eq c <;> rw [h] <;> decide
  have hquote : isQuote (blank c) = false := by
    obtain h | h := blank_eq c <;> rw [h] <;> decide
  rw [maskScriptFrom_code (fun h => absurd h hslash) fun h => absurd h hslash, hquote]
  rfl

/-- The mark of a comment becomes two blanks. -/
theorem maskScriptFrom_blanks (rest : Text) :
    maskScriptFrom .code (' ' :: ' ' :: rest) = ' ' :: ' ' :: maskScriptFrom .code rest := by
  have h := maskScriptFrom_blank ' '
  rw [show blank ' ' = ' ' from rfl] at h
  rw [h, h]

/-- A character in a literal that escapes none behind it. -/
theorem maskScriptFrom_literal {q c : Char} {rest : Text} (h : c = '\\' → rest = []) :
    maskScriptFrom (.literal q) (c :: rest) =
      c :: maskScriptFrom (if c == q || (c == '\n' && q != '`') then .code else .literal q) rest := by
  refine maskScriptFrom.eq_6 q c rest fun d tail hc hrest => ?_
  rw [h hc] at hrest
  cases hrest

/-- Masked text opens with no mark that the text does not open with. -/
theorem head?_maskScriptFrom_ne {mode : ScriptMode} {t : Text} {c : Char} (hc : c ≠ ' ')
    (h : ∀ rest, t ≠ c :: rest) : (maskScriptFrom mode t).head? ≠ some c := by
  intro hhead
  have hword : ' ' ∉ [c] := fun hmem => hc (List.mem_singleton.mp hmem).symm
  obtain ⟨masked, hmasked⟩ := List.head?_eq_some_iff.mp hhead
  obtain ⟨rest, hrest⟩ := (maskOf_maskScriptFrom mode t).prefix_of_no_blank hword ⟨masked, hmasked.symm⟩
  exact h rest hrest.symm

/-- Masked text is left alone, whatever mode its masking began in: by induction on the masking, with
every character of a comment a blank to the second reader. -/
theorem maskScriptFrom_masked (mode : ScriptMode) (t : Text) :
    maskScriptFrom mode.masked (maskScriptFrom mode t) = maskScriptFrom mode t := by
  fun_induction maskScriptFrom mode t with
  | case1 => rw [maskScriptFrom]
  | case2 rest ih => exact (maskScriptFrom_blanks _).trans (congrArg (' ' :: ' ' :: ·) ih)
  | case3 rest ih => exact (maskScriptFrom_blanks _).trans (congrArg (' ' :: ' ' :: ·) ih)
  | case4 c rest hline hblock ih =>
    have hmasked : (if isQuote c then ScriptMode.literal c else .code).masked =
        if isQuote c then .literal c else .code := by
      split <;> rfl
    rw [hmasked] at ih
    rw [ScriptMode.masked, maskScriptFrom_code, ih]
    · exact fun hc => head?_maskScriptFrom_ne (by decide) fun tail => hline tail hc
    · exact fun hc => head?_maskScriptFrom_ne (by decide) fun tail => hblock tail hc
  | case5 q c rest ih =>
    rw [ScriptMode.masked, maskScriptFrom]
    exact congrArg ('\\' :: c :: ·) ih
  | case6 q c rest hescape ih =>
    have hmasked : (if c == q || (c == '\n' && q != '`') then ScriptMode.code else .literal q).masked =
        if c == q || (c == '\n' && q != '`') then .code else .literal q := by
      split <;> rfl
    rw [hmasked] at ih
    rw [ScriptMode.masked, maskScriptFrom_literal, ih]
    intro hc
    cases rest with
    | nil => rw [maskScriptFrom]
    | cons d rest => exact absurd rfl (hescape d rest hc)
  | case7 c rest ih =>
    have hmasked : (if c == '\n' then ScriptMode.code else .line).masked = .code := by
      split <;> rfl
    rw [hmasked] at ih
    exact (maskScriptFrom_blank c _).trans (congrArg (blank c :: ·) ih)
  | case8 rest ih => exact (maskScriptFrom_blanks _).trans (congrArg (' ' :: ' ' :: ·) ih)
  | case9 c rest hclose ih => exact (maskScriptFrom_blank c _).trans (congrArg (blank c :: ·) ih)

/-- Masking comments keeps the frame of every script and style text, and masked script text is masked
already. -/
theorem masking_framed (t : Text) :
    Framed t (maskScript t) ∧ Framed t (maskStyle t) ∧ maskScript (maskScript t) = maskScript t :=
  ⟨(maskOf_maskScript t).framed, (maskOf_maskStyle t).framed, maskScriptFrom_masked .code t⟩

/-- The blanks of a comment make a blank start of the line, so masking style text twice may find a
second comment. -/
example : maskStyle "/**/ // a" = "     // a".toList ∧
    maskStyle (maskStyle "/**/ // a") = "         ".toList := by decide

end Comment

end ComponentAudit
