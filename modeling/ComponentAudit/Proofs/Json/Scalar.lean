import ComponentAudit.Json.Reader
import ComponentAudit.Json.Writer

/-! # Strings and numbers read back

A string is read back escape by escape: a character beyond the first plane is written as two units,
and the reader holds the first until the second is there. A number is read back if what follows it
cannot be taken for more of it. -/

namespace ComponentAudit.Json

/-! ## Units -/

theorem hexValue?_hexDigit : ∀ n < 16, hexValue? (hexDigit n) = some n := by decide

theorem unit?_digits {n : Nat} (h : n < 0x10000) :
    unit? (hexDigit (n / 4096 % 16)) (hexDigit (n / 256 % 16)) (hexDigit (n / 16 % 16))
      (hexDigit (n % 16)) = some n := by
  have hdigit : ∀ m, hexValue? (hexDigit (m % 16)) = some (m % 16) :=
    fun m => hexValue?_hexDigit _ (Nat.mod_lt _ (by decide))
  have hsum : ((n / 4096 % 16 * 16 + n / 256 % 16) * 16 + n / 16 % 16) * 16 + n % 16 = n := by omega
  simp [unit?, hdigit, hsum]

theorem stringFrom_unit {n : Nat} (h : n < 0x10000) (hsingle : ¬ (0xd800 ≤ n ∧ n ≤ 0xdfff))
    (rest : Text) :
    stringFrom none (escapeUnit n ++ rest) =
      (stringFrom none rest).map fun (t, rest) => (Char.ofNat n :: t, rest) := by
  have hlead : ¬ (0xd800 ≤ n ∧ n ≤ 0xdbff) := by omega
  simp [escapeUnit, stringFrom, unit?_digits h, unitChar, hsingle, hlead]

/-- A leading unit waits for the unit behind it. -/
theorem stringFrom_units {n : Nat} (hlow : 0x10000 ≤ n) (hhigh : n < 0x110000) (rest : Text) :
    stringFrom none (escapeUnit (0xd800 + (n - 0x10000) / 1024) ++
        (escapeUnit (0xdc00 + (n - 0x10000) % 1024) ++ rest)) =
      (stringFrom none rest).map fun (t, rest) => (Char.ofNat n :: t, rest) := by
  generalize hfirst : 0xd800 + (n - 0x10000) / 1024 = first
  generalize hsecond : 0xdc00 + (n - 0x10000) % 1024 = second
  have hlead : 0xd800 ≤ first ∧ first ≤ 0xdbff := by omega
  have htrail : 0xdc00 ≤ second ∧ second ≤ 0xdfff := by omega
  have hpair : 0x10000 + (first - 0xd800) * 1024 + (second - 0xdc00) = n := by omega
  have hfirstUnit := unit?_digits (n := first) (by omega)
  have hsecondUnit := unit?_digits (n := second) (by omega)
  simp [escapeUnit, stringFrom, hfirstUnit, hsecondUnit, hlead, htrail, hpair]

/-! ## Strings -/

theorem toNat_lt (c : Char) : c.toNat < 0x110000 := by
  rcases c.valid with h | h
  · exact Nat.lt_trans h (by decide)
  · exact h.2

theorem not_surrogate (c : Char) : ¬ (0xd800 ≤ c.toNat ∧ c.toNat ≤ 0xdfff) := by
  rcases c.valid with h | h
  · exact fun hc => absurd h (Nat.not_lt.mpr hc.1)
  · exact fun hc => absurd h.1 (Nat.not_lt.mpr hc.2)

/-- The four ways in which a character is written. -/
theorem escapeChar_cases (c : Char) :
    (∃ e, escapeChar c = ['\\', e] ∧ letterEscape? e = some c ∧ e.toNat < 128) ∨
    (escapeChar c = [c] ∧ c ≠ '"' ∧ c ≠ '\\' ∧ 32 ≤ c.toNat ∧ c.toNat ≤ 126) ∨
    (escapeChar c = escapeUnit c.toNat ∧ c.toNat < 0x10000) ∨
    (escapeChar c = escapeUnit (0xd800 + (c.toNat - 0x10000) / 1024) ++
      escapeUnit (0xdc00 + (c.toNat - 0x10000) % 1024) ∧ 0x10000 ≤ c.toNat) := by
  by_cases hquote : c = '"'
  · exact .inl ⟨'"', by rw [hquote]; decide⟩
  by_cases hslash : c = '\\'
  · exact .inl ⟨'\\', by rw [hslash]; decide⟩
  by_cases hfeed : c = '\n'
  · exact .inl ⟨'n', by rw [hfeed]; decide⟩
  by_cases hreturn : c = '\r'
  · exact .inl ⟨'r', by rw [hreturn]; decide⟩
  by_cases htab : c = '\t'
  · exact .inl ⟨'t', by rw [htab]; decide⟩
  by_cases hform : c.toNat = 12
  · exact .inl ⟨'f', by rw [← Char.ofNat_toNat c, hform]; decide⟩
  by_cases hback : c.toNat = 8
  · exact .inl ⟨'b', by rw [← Char.ofNat_toNat c, hback]; decide⟩
  simp only [escapeChar, beq_iff_eq, Bool.and_eq_true, decide_eq_true_eq, hquote, hslash, hfeed,
    hreturn, htab, hform, hback, if_false]
  by_cases hplain : 32 ≤ c.toNat ∧ c.toNat ≤ 126
  · exact .inr (.inl ⟨if_pos hplain, hquote, hslash, hplain⟩)
  by_cases hunit : c.toNat < 0x10000
  · exact .inr (.inr (.inl ⟨by rw [if_neg hplain, if_pos hunit], hunit⟩))
  · exact .inr (.inr (.inr ⟨by rw [if_neg hplain, if_neg hunit], Nat.not_lt.mp hunit⟩))

theorem stringFrom_letter {e c : Char} (h : letterEscape? e = some c) (rest : Text) :
    stringFrom none ('\\' :: e :: rest) =
      (stringFrom none rest).map fun (t, rest) => (c :: t, rest) := by
  have hu : e ≠ 'u' := by
    rintro rfl
    simp [letterEscape?] at h
  rw [stringFrom]
  · simp [h]
  · intro a b c d rest he
    exact absurd he hu

theorem stringFrom_plain {c : Char} (hquote : c ≠ '"') (hslash : c ≠ '\\') (hlow : 32 ≤ c.toNat)
    (rest : Text) :
    stringFrom none (c :: rest) = (stringFrom none rest).map fun (t, rest) => (c :: t, rest) := by
  rw [stringFrom]
  · simp [hquote, hslash, Nat.not_lt.mpr hlow]
  · intro a b d e rest hc
    exact absurd hc hslash
  · intro e rest hc
    exact absurd hc hslash

theorem stringFrom_escapeChar (c : Char) (rest : Text) :
    stringFrom none (escapeChar c ++ rest) =
      (stringFrom none rest).map fun (t, rest) => (c :: t, rest) := by
  obtain ⟨e, hc, he, -⟩ | ⟨hc, hquote, hslash, hlow, -⟩ | ⟨hc, hunit⟩ | ⟨hc, hpair⟩ :=
    escapeChar_cases c
  · rw [hc]
    exact stringFrom_letter he rest
  · rw [hc]
    exact stringFrom_plain hquote hslash hlow rest
  · rw [hc, stringFrom_unit hunit (not_surrogate c), Char.ofNat_toNat]
  · rw [hc, List.append_assoc, stringFrom_units hpair (toNat_lt c), Char.ofNat_toNat]

/-- A quoted text is read back up to its closing quote. -/
theorem stringFrom_quote (t rest : Text) :
    stringFrom none (t.flatMap escapeChar ++ '"' :: rest) = some (t, rest) := by
  induction t with
  | nil => simp [stringFrom]
  | cons c t ih =>
    rw [List.flatMap_cons, List.append_assoc, stringFrom_escapeChar, ih]
    rfl

/-! ## Numbers -/

theorem isAsciiDigit_of_mem_ofNat {n : Nat} {c : Char} (h : c ∈ Text.ofNat n) :
    isAsciiDigit c = true := by
  have hdigit : c.isDigit = true := Nat.isDigit_of_mem_toDigits (by decide) (by decide) h
  simp only [Char.isDigit, Bool.and_eq_true, decide_eq_true_eq] at hdigit
  simp only [isAsciiDigit, Bool.and_eq_true, decide_eq_true_eq]
  exact hdigit

theorem digitsValue_ofNat (n : Nat) : digitsValue (Text.ofNat n) = n := by
  have hvalue := Nat.ofDigitChars_toDigits (b := 10) (n := n) (by decide) (by decide)
  simp only [Nat.ofDigitChars, Nat.mul_comm 10] at hvalue
  exact hvalue

/-- Only zero is written with a zero in front. -/
theorem pos_of_ofNat {n : Nat} (hn : 0 < n) (rest : Text) : Text.ofNat n ≠ '0' :: rest := by
  induction n using Nat.strongRecOn generalizing rest with
  | ind n ih =>
    unfold Text.ofNat at ih ⊢
    rw [Nat.toDigits_eq_if (by decide)]
    split
    · rename_i hsmall
      have hdigit : ∀ d < 10, 0 < d → d.digitChar ≠ '0' := by decide
      intro h
      exact hdigit n hsmall hn (List.cons.inj h).1
    · intro h
      obtain ⟨d, digits, hd⟩ := List.exists_cons_of_ne_nil (Nat.toDigits_ne_nil (n := n / 10) (b := 10))
      rw [hd, List.cons_append] at h
      exact ih (n / 10) (by omega) (by omega) digits (hd.trans (by rw [(List.cons.inj h).1]))

/-- Nothing that could be taken for a further digit. -/
def NoDigit (rest : Text) : Prop := ∀ c ∈ rest.head?, isAsciiDigit c = false

/-- Nothing that could be taken for more of a number. -/
def Stops (rest : Text) : Prop :=
  ∀ c ∈ rest.head?, isAsciiDigit c = false ∧ c ≠ '.' ∧ c ≠ 'e' ∧ c ≠ 'E'

theorem Stops.noDigit {rest : Text} (h : Stops rest) : NoDigit rest := fun c hc => (h c hc).1

theorem takeDigits_ofNat (n : Nat) {rest : Text} (h : NoDigit rest) :
    takeDigits (Text.ofNat n ++ rest) = (Text.ofNat n, rest) := by
  have hall : ∀ c ∈ Text.ofNat n, isAsciiDigit c = true := fun c hc => isAsciiDigit_of_mem_ofNat hc
  have htake : rest.takeWhile isAsciiDigit = [] ∧ rest.dropWhile isAsciiDigit = rest := by
    cases rest with
    | nil => exact ⟨rfl, rfl⟩
    | cons c rest => simp [h c rfl]
  rw [takeDigits, List.takeWhile_append_of_pos hall, List.dropWhile_append_of_pos hall, htake.1,
    htake.2, List.append_nil]

theorem exponent?_ofInt (e : Int) {rest : Text} (h : NoDigit rest) :
    exponent? ('e' :: (Text.ofInt e ++ rest)) = some (e, rest) := by
  cases e with
  | ofNat n =>
    obtain ⟨d, digits, hd⟩ := List.exists_cons_of_ne_nil (Nat.toDigits_ne_nil (n := n) (b := 10))
    have hdigit : isAsciiDigit d = true := isAsciiDigit_of_mem_ofNat (n := n) (by simp [Text.ofNat, hd])
    have hminus : d ≠ '-' := by
      rintro rfl
      exact absurd hdigit (by decide)
    have hplus : d ≠ '+' := by
      rintro rfl
      exact absurd hdigit (by decide)
    have htake := takeDigits_ofNat n h
    have hvalue := digitsValue_ofNat n
    simp only [Text.ofNat, hd, List.cons_append] at htake hvalue
    simp [exponent?, Text.ofInt, Text.ofNat, hd, htake, hvalue, hminus, hplus]
  | negSucc n =>
    have htake := takeDigits_ofNat (n + 1) h
    have hne : Text.ofNat (n + 1) ≠ [] := Nat.toDigits_ne_nil
    simp [exponent?, Text.ofInt, htake, digitsValue_ofNat, hne, Int.negSucc_eq]

theorem number?_ofNat_append (sign : Int) (n : Nat) {rest : Text} (h : NoDigit rest)
    (hpoint : rest.head? ≠ some '.') :
    number? sign (Text.ofNat n ++ rest) =
      (exponent? rest).elim (some (.int (sign * n), rest)) fun found =>
        some (.decimal (sign * n) found.1, found.2) := by
  -- the simplifier needs this to pass over the fraction
  have hrest : ∀ more, rest ≠ '.' :: more := by
    rintro more rfl
    exact hpoint rfl
  have htake := takeDigits_ofNat n h
  have hvalue := digitsValue_ofNat n
  by_cases hn : n = 0
  · rw [hn] at hvalue ⊢
    have hzero : Text.ofNat 0 = ['0'] := rfl
    rw [hzero] at hvalue ⊢
    cases hexponent : exponent? rest with
    | none => simp [number?, hvalue, hexponent]
    | some found => simp [number?, hvalue, hexponent]
  · obtain ⟨d, digits, hd⟩ : ∃ d digits, Text.ofNat n = d :: digits :=
      List.exists_cons_of_ne_nil Nat.toDigits_ne_nil
    have hzero : d ≠ '0' := by
      rintro rfl
      exact pos_of_ofNat (Nat.pos_of_ne_zero hn) digits hd
    rw [hd] at htake hvalue ⊢
    rw [List.cons_append] at htake ⊢
    cases hexponent : exponent? rest with
    | none => simp [number?, hzero, htake, hvalue, hexponent]
    | some found => simp [number?, hzero, htake, hvalue, hexponent]

theorem number?_int (sign : Int) (n : Nat) {rest : Text} (h : Stops rest) :
    number? sign (Text.ofNat n ++ rest) = some (.int (sign * n), rest) := by
  have hexponent : exponent? rest = none := by
    cases rest with
    | nil => rfl
    | cons c rest => simp [exponent?, (h c rfl).2.2]
  have hpoint : rest.head? ≠ some '.' := fun hpoint => (h '.' hpoint).2.1 rfl
  rw [number?_ofNat_append sign n h.noDigit hpoint, hexponent]
  rfl

theorem number?_decimal (sign : Int) (n : Nat) (e : Int) {rest : Text} (h : NoDigit rest) :
    number? sign (Text.ofNat n ++ 'e' :: (Text.ofInt e ++ rest)) =
      some (.decimal (sign * n) e, rest) := by
  have hletter : NoDigit ('e' :: (Text.ofInt e ++ rest)) := by
    intro c hc
    rw [← Option.some.inj hc]
    decide
  rw [number?_ofNat_append sign n hletter (by simp), exponent?_ofInt e h]
  rfl

end ComponentAudit.Json
