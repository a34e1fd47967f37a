import ComponentAudit.Style.Scan
import Mathlib.Data.Nat.Count

/-! # Pairs of braces

A brace is live if it stands outside strings. The height of an offset is the number of live opening
braces in front of it, less the closing ones, and two live braces are partners if the height between
them never falls below what it is at both ends. That says nothing of a stack. The reader keeps one, and
between two braces on it the text is balanced (`Opened`), so the pairs it finds are exactly the partners
(`mem_bracePairs_iff`). Whether pairs are nested, what stands between the braces of a pair and which
braces have no partner are then questions about heights (`bracePairs_wellNested`). -/

namespace ComponentAudit.Sheet

/-! ## Strings -/

/-- Where a reader of style text stands: outside strings, inside one, or inside one behind a
backslash. -/
inductive QuoteMode where
  | outside
  | inside (quote : Char)
  | escaped (quote : Char)
  deriving DecidableEq

namespace QuoteMode

/-- The mode behind one more character. A quote opens a string, and the next such quote closes it. In a
string a backslash takes the character behind it along, whatever that is. -/
def next : QuoteMode → Char → QuoteMode
  | .outside, c => if isStyleQuote c then .inside c else .outside
  | .inside q, c => if c == '\\' then .escaped q else if c == q then .outside else .inside q
  | .escaped q, _ => .inside q

/-- The mode behind a text. -/
def behind (t : Text) : QuoteMode := t.foldl next .outside

/-- The mode of a reader that keeps the quote of the string it is in. -/
def ofQuote : Option Char → QuoteMode
  | none => .outside
  | some q => .inside q

theorem behind_take_succ {t : Text} {offset : Nat} {c : Char} (h : t[offset]? = some c) :
    behind (t.take (offset + 1)) = (behind (t.take offset)).next c := by
  rw [List.take_add_one, h, behind, List.foldl_append]
  rfl

end QuoteMode

/-- A character that stands at an offset outside strings. -/
def Live (t : Text) (c : Char) (offset : Nat) : Prop :=
  t[offset]? = some c ∧ QuoteMode.behind (t.take offset) = .outside

instance (t : Text) (c : Char) : DecidablePred (Live t c) :=
  fun offset => inferInstanceAs (Decidable (t[offset]? = some c ∧ _))

theorem Live.unique {t : Text} {c d : Char} {offset : Nat} (h : Live t c offset)
    (h' : Live t d offset) : c = d :=
  Option.some.inj (h.1.symm.trans h'.1)

theorem Live.lt_length {t : Text} {c : Char} {offset : Nat} (h : Live t c offset) :
    offset < t.length :=
  (List.getElem?_eq_some_iff.mp h.1).1

/-! ## Heights -/

/-- The live opening braces less the live closing ones among the `size` characters from `start` on. -/
def excess (t : Text) (start size : Nat) : Int :=
  Nat.count (fun i => Live t '{' (start + i)) size - Nat.count (fun i => Live t '}' (start + i)) size

/-- The live opening braces less the live closing ones in front of an offset. -/
def height (t : Text) (offset : Nat) : Int :=
  Nat.count (Live t '{') offset - Nat.count (Live t '}') offset

section

variable {t : Text} {start stop opener closer offset : Nat}

theorem excess_eq (t : Text) (start size : Nat) :
    excess t start size = height t (start + size) - height t start := by
  rw [excess, height, height, Nat.count_add, Nat.count_add]
  omega

theorem height_opener (h : Live t '{' offset) : height t (offset + 1) = height t offset + 1 := by
  have hother : ¬Live t '}' offset := fun h' => absurd (h.unique h') (by decide)
  rw [height, height, Nat.count_succ, Nat.count_succ, if_pos h, if_neg hother]
  omega

theorem height_closer (h : Live t '}' offset) : height t (offset + 1) = height t offset - 1 := by
  have hother : ¬Live t '{' offset := fun h' => absurd (h.unique h') (by decide)
  rw [height, height, Nat.count_succ, Nat.count_succ, if_neg hother, if_pos h]
  omega

theorem height_other (hopen : ¬Live t '{' offset) (hclose : ¬Live t '}' offset) :
    height t (offset + 1) = height t offset := by
  rw [height, height, Nat.count_succ, Nat.count_succ, if_neg hopen, if_neg hclose]
  rfl

/-- Only a closing brace lowers the height, and by one. -/
theorem closer_of_height_lt (h : height t (offset + 1) < height t offset) : Live t '}' offset := by
  by_contra hclose
  by_cases hopen : Live t '{' offset
  · have hup := height_opener hopen
    omega
  · have hsame := height_other hopen hclose
    omega

/-- The live braces from one offset up to another are balanced: as many are closed as opened, and none
is closed that was opened before. -/
structure Balanced (t : Text) (start stop : Nat) : Prop where
  le : start ≤ stop
  level : height t stop = height t start
  above : ∀ offset, start ≤ offset → offset ≤ stop → height t start ≤ height t offset

theorem Balanced.refl (t : Text) (offset : Nat) : Balanced t offset offset := by
  refine ⟨Nat.le_refl offset, rfl, ?_⟩
  intro n hle hge
  rw [Nat.le_antisymm hge hle]

theorem Balanced.trans {middle : Nat} (h : Balanced t start middle) (h' : Balanced t middle stop) :
    Balanced t start stop := by
  refine ⟨Nat.le_trans h.le h'.le, h'.level.trans h.level, ?_⟩
  intro n hstart hstop
  rcases Nat.le_total n middle with hle | hge
  · exact h.above n hstart hle
  · exact h.level ▸ h'.above n hge hstop

/-- One character, if it is no live brace. -/
theorem Balanced.other (hopen : ¬Live t '{' offset) (hclose : ¬Live t '}' offset) :
    Balanced t offset (offset + 1) := by
  have hsame := height_other hopen hclose
  refine ⟨Nat.le_succ offset, hsame, ?_⟩
  intro n hle hge
  obtain rfl | rfl : n = offset ∨ n = offset + 1 := by omega
  · exact Int.le_refl _
  · exact Int.le_of_eq hsame.symm

/-! ## Partners -/

/-- A live opening brace and a live closing one with balanced braces between them. -/
structure Partners (t : Text) (opener closer : Nat) : Prop where
  opens : Live t '{' opener
  closes : Live t '}' closer
  between : Balanced t (opener + 1) closer

namespace Partners

theorem lt (h : Partners t opener closer) : opener < closer := h.between.le

/-- A pair is balanced as a whole. -/
theorem balanced (h : Partners t opener closer) : Balanced t opener (closer + 1) := by
  have hup := height_opener h.opens
  have hdown := height_closer h.closes
  have hlevel := h.between.level
  refine ⟨Nat.le_succ_of_le (Nat.le_of_lt h.lt), by omega, ?_⟩
  intro n hstart hstop
  obtain rfl | hstart := Nat.eq_or_lt_of_le hstart
  · exact Int.le_refl _
  · obtain rfl | hstop := Nat.eq_or_lt_of_le hstop
    · omega
    · have habove := h.between.above n hstart (Nat.le_of_lt_succ hstop)
      omega

/-- A brace is closed where the height first falls below it. -/
theorem closer_le {closer' : Nat} (h : Partners t opener closer) (h' : Partners t opener closer') :
    closer' ≤ closer := by
  by_contra hlt
  have habove := h'.between.above (closer + 1) (Nat.succ_le_succ h.lt.le) (Nat.lt_of_not_le hlt)
  have hdown := height_closer h.closes
  have hlevel := h.between.level
  omega

theorem closer_unique {closer' : Nat} (h : Partners t opener closer)
    (h' : Partners t opener closer') : closer = closer' :=
  Nat.le_antisymm (h'.closer_le h) (h.closer_le h')

/-- What is closed is the last brace that is still open. -/
theorem opener_le {opener' : Nat} (h : Partners t opener closer) (h' : Partners t opener' closer) :
    opener' ≤ opener := by
  by_contra hlt
  have habove := h.between.above opener' (Nat.lt_of_not_le hlt) (Nat.le_of_lt h'.lt)
  have hup := height_opener h'.opens
  have hlevel := h.between.level
  have hlevel' := h'.between.level
  omega

theorem opener_unique {opener' : Nat} (h : Partners t opener closer)
    (h' : Partners t opener' closer) : opener = opener' :=
  Nat.le_antisymm (h'.opener_le h) (h.opener_le h')

/-- Of two pairs the one that is opened later is closed before the other one, or opened behind it. -/
theorem nested {opener' closer' : Nat} (h : Partners t opener closer)
    (h' : Partners t opener' closer') (hlt : opener < opener') : closer < opener' ∨ closer' < closer := by
  by_contra hcross
  have hmeet : opener' ≠ closer := by
    rintro rfl
    exact absurd (h'.opens.unique h.closes) (by decide)
  have hsame : closer' ≠ closer := by
    rintro rfl
    exact absurd (h.opener_unique h') (Nat.ne_of_lt hlt)
  have habove := h.between.above opener' hlt (by omega)
  have habove' := h'.between.above closer (by omega) (by omega)
  have hup := height_opener h'.opens
  have hlevel := h.between.level
  omega

end Partners

/-- A brace is closed in front of an offset, or the height has not fallen below it up to there. -/
theorem closed_or_above (hopener : Live t '{' opener) (hlt : opener < stop) :
    (∃ closer < stop, Partners t opener closer) ∨
      ∀ offset, opener < offset → offset ≤ stop → height t (opener + 1) ≤ height t offset := by
  induction stop, hlt using Nat.le_induction with
  | base => exact .inr (Balanced.refl t (opener + 1)).above
  | succ stop hlt ih =>
    obtain ⟨closer, hcloser, hpartners⟩ | habove := ih
    · exact .inl ⟨closer, Nat.lt_succ_of_lt hcloser, hpartners⟩
    · by_cases hfall : height t (stop + 1) < height t (opener + 1)
      · have hstop := habove stop hlt (Nat.le_refl stop)
        -- the height falls below the brace here for the first time
        have hcloser := closer_of_height_lt (Int.lt_of_lt_of_le hfall hstop)
        have hdown := height_closer hcloser
        exact .inl ⟨stop, Nat.lt_succ_self stop, hopener, hcloser, hlt, by omega, habove⟩
      · refine .inr ?_
        intro offset hstart hend
        obtain rfl | hend := Nat.eq_or_lt_of_le hend
        · omega
        · exact habove offset hstart (Nat.le_of_lt_succ hend)

/-! ## The stack of open braces -/

/-- The braces that are open in front of an offset, the last one first: each is live, the text behind it
is balanced up to the next one, and in front of them all no brace is left open. -/
inductive Opened (t : Text) : List Nat → Nat → Prop
  | none {offset : Nat} (h : ∀ n ≤ offset, height t offset ≤ height t n) : Opened t [] offset
  | some {openers : List Nat} {opener offset : Nat} (hbelow : Opened t openers opener)
      (hopener : Live t '{' opener) (hbehind : Balanced t (opener + 1) offset) :
      Opened t (opener :: openers) offset

namespace Opened

variable {openers : List Nat}

theorem atStart (t : Text) : Opened t [] 0 := by
  refine .none ?_
  intro n hn
  rw [Nat.le_zero.mp hn]

/-- What is open stays open over a balanced text. -/
theorem extend (h : Opened t openers offset) (hbalanced : Balanced t offset stop) :
    Opened t openers stop := by
  cases h with
  | none h =>
    refine .none ?_
    intro n hn
    rw [hbalanced.level]
    rcases Nat.le_total n offset with hle | hge
    · exact h n hle
    · exact hbalanced.above n hge hn
  | some hbelow hopener hbehind => exact .some hbelow hopener (hbehind.trans hbalanced)

theorem push (h : Opened t openers offset) (hopener : Live t '{' offset) :
    Opened t (offset :: openers) (offset + 1) :=
  .some h hopener (Balanced.refl t (offset + 1))

/-- A closing brace is the partner of the brace that was opened last. -/
theorem partners (h : Opened t (opener :: openers) offset) (hcloser : Live t '}' offset) :
    Partners t opener offset := by
  cases h with
  | some hbelow hopener hbehind => exact ⟨hopener, hcloser, hbehind⟩

theorem pop (h : Opened t (opener :: openers) offset) (hcloser : Live t '}' offset) :
    Opened t openers (offset + 1) := by
  have hbalanced := (h.partners hcloser).balanced
  cases h with
  | some hbelow hopener hbehind => exact hbelow.extend hbalanced

/-- If nothing is open, nothing is open behind a closing brace, either. -/
theorem stray (h : Opened t [] offset) (hcloser : Live t '}' offset) : Opened t [] (offset + 1) := by
  have hdown := height_closer hcloser
  cases h with
  | none h =>
    refine .none ?_
    intro n hn
    obtain rfl | hn := Nat.eq_or_lt_of_le hn
    · exact Int.le_refl _
    · have hle := h n (Nat.le_of_lt_succ hn)
      omega

theorem exists_opened (t : Text) (offset : Nat) : ∃ openers, Opened t openers offset := by
  induction offset with
  | zero => exact ⟨[], atStart t⟩
  | succ offset ih =>
    obtain ⟨openers, h⟩ := ih
    by_cases hopener : Live t '{' offset
    · exact ⟨_, h.push hopener⟩
    · by_cases hcloser : Live t '}' offset
      · cases openers with
        | nil => exact ⟨[], h.stray hcloser⟩
        | cons opener openers => exact ⟨openers, h.pop hcloser⟩
      · exact ⟨openers, h.extend (.other hopener hcloser)⟩

/-- If nothing is open, no brace is closed. -/
theorem not_partners (h : Opened t [] closer) : ¬Partners t opener closer := by
  intro hpartners
  have hup := height_opener hpartners.opens
  have hlevel := hpartners.between.level
  cases h with
  | none h =>
    have hle := h opener (Nat.le_of_lt hpartners.lt)
    omega

end Opened

/-- A closing brace has a partner behind every offset where the height is lower than in front of it. -/
theorem exists_opener (hcloser : Live t '}' closer) (hle : start ≤ closer)
    (hlow : height t start < height t closer) : ∃ opener, start ≤ opener ∧ Partners t opener closer := by
  obtain ⟨openers, hopened⟩ := Opened.exists_opened t closer
  cases openers with
  | nil =>
    cases hopened with
    | none h => exact absurd (h start hle) (Int.not_le_of_gt hlow)
  | cons opener openers =>
    have hpartners := hopened.partners hcloser
    refine ⟨opener, ?_, hpartners⟩
    by_contra hbefore
    have habove := hpartners.between.above start (Nat.lt_of_not_le hbefore) hle
    have hlevel := hpartners.between.level
    omega

/-! ## The reader -/

/-- The reader has read the text in front of an offset: what is left, whether it is in a string, and
which braces are open. -/
structure ReadTo (t : Text) (mode : QuoteMode) (openers : List Nat) (offset : Nat) (rest : Text) :
    Prop where
  rest_eq : t.drop offset = rest
  mode_eq : QuoteMode.behind (t.take offset) = mode
  opened : Opened t openers offset

namespace ReadTo

variable {mode : QuoteMode} {openers : List Nat} {c : Char} {rest : Text}

theorem atStart (t : Text) : ReadTo t .outside [] 0 t := ⟨rfl, rfl, .atStart t⟩

theorem getElem?_eq (h : ReadTo t mode openers offset (c :: rest)) : t[offset]? = some c := by
  rw [← Nat.add_zero offset, ← List.getElem?_drop, h.rest_eq]
  rfl

/-- The next character is live if the reader is outside strings. -/
theorem live_iff (h : ReadTo t mode openers offset (c :: rest)) (d : Char) :
    Live t d offset ↔ c = d ∧ mode = .outside := by
  rw [Live, h.getElem?_eq, h.mode_eq, Option.some.injEq]

/-- One character further, with the braces that are open behind it. -/
theorem next {mode' : QuoteMode} {openers' : List Nat} (h : ReadTo t mode openers offset (c :: rest))
    (hmode : mode.next c = mode') (hopened : Opened t openers' (offset + 1)) :
    ReadTo t mode' openers' (offset + 1) rest := by
  refine ⟨?_, ?_, hopened⟩
  · rw [← List.drop_drop, h.rest_eq]
    rfl
  · rw [QuoteMode.behind_take_succ h.getElem?_eq, h.mode_eq, hmode]

/-- One character further, if it is no live brace. -/
theorem pass {mode' : QuoteMode} (h : ReadTo t mode openers offset (c :: rest))
    (hmode : mode.next c = mode') (hother : mode = .outside → c ≠ '{' ∧ c ≠ '}') :
    ReadTo t mode' openers (offset + 1) rest := by
  refine h.next hmode (h.opened.extend (.other ?_ ?_))
  · intro hlive
    obtain ⟨hc, houtside⟩ := (h.live_iff '{').mp hlive
    exact (hother houtside).1 hc
  · intro hlive
    obtain ⟨hc, houtside⟩ := (h.live_iff '}').mp hlive
    exact (hother houtside).2 hc

theorem not_partners (h : ReadTo t mode openers offset (c :: rest))
    (hother : mode = .outside → c ≠ '}') : ¬Partners t opener offset := by
  intro hpartners
  obtain ⟨hc, houtside⟩ := (h.live_iff '}').mp hpartners.closes
  exact hother houtside hc

/-- At the end of the text nothing is closed. -/
theorem not_partners_from (h : ReadTo t mode openers offset []) :
    ¬(offset ≤ closer ∧ Partners t opener closer) := by
  intro ⟨hle, hpartners⟩
  have hlength := List.drop_eq_nil_iff.mp h.rest_eq
  have hlt := hpartners.closes.lt_length
  omega

end ReadTo

theorem partners_from_succ (h : ¬Partners t opener offset) :
    offset + 1 ≤ closer ∧ Partners t opener closer ↔ offset ≤ closer ∧ Partners t opener closer := by
  refine and_congr_left ?_
  intro hpartners
  have hne : closer ≠ offset := by
    intro heq
    exact h (heq ▸ hpartners)
  omega

theorem ne_brace_of_isStyleQuote {c : Char} (h : isStyleQuote c = true) : c ≠ '{' ∧ c ≠ '}' := by
  constructor
  · rintro rfl
    cases h
  · rintro rfl
    cases h

/-- What the reader still pairs are the partners whose second brace it has not read: by induction along
the reader, in step with the stack of open braces. -/
theorem mem_bracePairsFrom_iff {quote : Option Char} {openers : List Nat} {rest : Text}
    (h : ReadTo t (.ofQuote quote) openers offset rest) :
    (opener, closer) ∈ bracePairsFrom quote openers offset rest ↔
      offset ≤ closer ∧ Partners t opener closer := by
  fun_induction bracePairsFrom quote openers offset rest with
  | case1 quote openers offset => exact iff_of_false List.not_mem_nil h.not_partners_from
  | case2 openers offset c q hescape =>
    have hnext : ReadTo t (.escaped q) openers (offset + 1) [] := h.pass (if_pos hescape) nofun
    rw [← partners_from_succ (h.not_partners nofun)]
    exact iff_of_false List.not_mem_nil hnext.not_partners_from
  | case3 openers offset c q hescape d rest ih =>
    have hnext : ReadTo t (.escaped q) openers (offset + 1) (d :: rest) :=
      h.pass (if_pos hescape) nofun
    rw [ih (hnext.pass rfl nofun), partners_from_succ (hnext.not_partners nofun),
      partners_from_succ (h.not_partners nofun)]
  | case4 openers offset c rest q hescape ih =>
    have hmode : QuoteMode.next (.inside q) c = .ofQuote (if c == q then none else some q) := by
      rw [QuoteMode.next, if_neg hescape]
      split <;> rfl
    rw [ih (h.pass hmode nofun), partners_from_succ (h.not_partners nofun)]
  | case5 openers offset c rest hquote ih =>
    have hother := ne_brace_of_isStyleQuote hquote
    rw [ih (h.pass (if_pos hquote) fun _ => hother),
      partners_from_succ (h.not_partners fun _ => hother.2)]
  | case6 openers offset c rest hquote hopen ih =>
    obtain rfl := eq_of_beq hopen
    have hlive : Live t '{' offset := (h.live_iff '{').mpr ⟨rfl, rfl⟩
    rw [ih (h.next rfl (h.opened.push hlive)), partners_from_succ (h.not_partners fun _ => by decide)]
  | case7 offset c rest hquote hopen hclose ih =>
    obtain rfl := eq_of_beq hclose
    have hlive : Live t '}' offset := (h.live_iff '}').mpr ⟨rfl, rfl⟩
    rw [ih (h.next rfl (h.opened.stray hlive)), partners_from_succ h.opened.not_partners]
  | case8 offset c rest hquote hopen hclose last openers ih =>
    obtain rfl := eq_of_beq hclose
    have hlive : Live t '}' offset := (h.live_iff '}').mpr ⟨rfl, rfl⟩
    have hlast := h.opened.partners hlive
    rw [List.mem_cons, Prod.mk.injEq, ih (h.next rfl (h.opened.pop hlive))]
    constructor
    · rintro (⟨rfl, rfl⟩ | ⟨hle, hpartners⟩)
      · exact ⟨Nat.le_refl _, hlast⟩
      · exact ⟨Nat.le_of_succ_le hle, hpartners⟩
    · rintro ⟨hle, hpartners⟩
      obtain rfl | hlt := Nat.eq_or_lt_of_le hle
      · -- the brace closes the last open one and no other
        exact .inl ⟨hpartners.opener_unique hlast, rfl⟩
      · exact .inr ⟨hlt, hpartners⟩
  | case9 openers offset c rest hquote hopen hclose ih =>
    have hother : c ≠ '{' ∧ c ≠ '}' :=
      ⟨fun hc => hopen (beq_iff_eq.mpr hc), fun hc => hclose (beq_iff_eq.mpr hc)⟩
    rw [ih (h.pass (if_neg hquote) fun _ => hother),
      partners_from_succ (h.not_partners fun _ => hother.2)]

/-- The reader pairs exactly the partners. -/
theorem mem_bracePairs_iff : (opener, closer) ∈ bracePairs t ↔ Partners t opener closer := by
  rw [bracePairs, mem_bracePairsFrom_iff (.atStart t)]
  exact and_iff_right (Nat.zero_le closer)

/-- The brace that is looked up for an opening one is its partner. -/
theorem lookup_bracePairs_iff : (bracePairs t).lookup opener = some closer ↔ Partners t opener closer := by
  have hsound : ∀ {found}, (bracePairs t).lookup opener = some found → Partners t opener found := by
    intro found hfound
    obtain ⟨before, after, heq, -⟩ := List.lookup_eq_some_iff.mp hfound
    refine mem_bracePairs_iff.mp ?_
    rw [heq]
    exact List.mem_append_right before List.mem_cons_self
  refine ⟨hsound, ?_⟩
  intro hpartners
  cases hfound : (bracePairs t).lookup opener with
  | none =>
    have hne := List.lookup_eq_none_iff.mp hfound _ (mem_bracePairs_iff.mpr hpartners)
    simp at hne
  | some found => rw [(hsound hfound).closer_unique hpartners]

theorem le_closer_of_mem {quote : Option Char} {openers : List Nat} {rest : Text} {pair : Nat × Nat}
    (h : pair ∈ bracePairsFrom quote openers offset rest) : offset ≤ pair.2 := by
  fun_induction bracePairsFrom quote openers offset rest <;> grind

/-- Pairs are found in the order in which they close. -/
theorem pairwise_bracePairsFrom (quote : Option Char) (openers : List Nat) (offset : Nat) (rest : Text) :
    (bracePairsFrom quote openers offset rest).Pairwise (·.2 < ·.2) := by
  fun_induction bracePairsFrom quote openers offset rest with
  | case1 | case2 => exact .nil
  | case8 offset c rest hquote hopen hclose last openers ih =>
    exact .cons (fun pair hpair => le_closer_of_mem hpair) ih
  | _ => assumption

/-! ## Nesting -/

/-- A list of pairs of offsets is a well-nested matching of the live braces of a text. -/
structure WellNested (t : Text) (pairs : List (Nat × Nat)) : Prop where
  lt : ∀ pair ∈ pairs, pair.1 < pair.2
  opens : ∀ pair ∈ pairs, Live t '{' pair.1
  closes : ∀ pair ∈ pairs, Live t '}' pair.2
  /-- No brace is in two pairs. -/
  once : (pairs.flatMap fun pair => [pair.1, pair.2]).Nodup
  /-- Two pairs are disjoint, or one of them is inside the other one. -/
  laminar : ∀ pair ∈ pairs, ∀ other ∈ pairs, pair ≠ other →
    (pair.2 < other.1 ∨ other.2 < pair.1) ∨
      (pair.1 < other.1 ∧ other.2 < pair.2 ∨ other.1 < pair.1 ∧ pair.2 < other.2)
  /-- The live braces between those of a pair are paired among themselves. -/
  inside : ∀ pair ∈ pairs, ∀ offset, pair.1 < offset → offset < pair.2 →
    Live t '{' offset ∨ Live t '}' offset →
      ∃ inner ∈ pairs, pair.1 < inner.1 ∧ inner.2 < pair.2 ∧ (offset = inner.1 ∨ offset = inner.2)
  /-- An opening brace is in no pair if and only if nowhere behind it one more brace is closed than
  opened. -/
  unpaired_iff : ∀ opener, Live t '{' opener →
    ((∀ closer, (opener, closer) ∉ pairs) ↔ ∀ size, excess t (opener + 1) size ≠ -1)

/-- A brace is closed if and only if at some place behind it one more brace is closed than opened. -/
theorem exists_partner_iff (hopener : Live t '{' opener) :
    (∃ closer, Partners t opener closer) ↔ ∃ size, excess t (opener + 1) size = -1 := by
  constructor
  · intro ⟨closer, hpartners⟩
    refine ⟨closer - opener, ?_⟩
    have hlt := hpartners.lt
    have hdown := height_closer hpartners.closes
    have hlevel := hpartners.between.level
    have hend : opener + 1 + (closer - opener) = closer + 1 := by omega
    rw [excess_eq, hend]
    omega
  · intro ⟨size, hsize⟩
    have hlt : opener < opener + 1 + size := by omega
    obtain ⟨closer, -, hpartners⟩ | habove := closed_or_above hopener hlt
    · exact ⟨closer, hpartners⟩
    · have hle := habove (opener + 1 + size) hlt (Nat.le_refl _)
      rw [excess_eq] at hsize
      omega

/-- What stands between two partners has its own partner there. -/
theorem Partners.exists_inner (h : Partners t opener closer) (hstart : opener < offset)
    (hend : offset < closer) (hlive : Live t '{' offset ∨ Live t '}' offset) :
    ∃ first last, opener < first ∧ last < closer ∧ Partners t first last ∧
      (offset = first ∨ offset = last) := by
  have hlevel := h.between.level
  have habove := h.between.above offset hstart (Nat.le_of_lt hend)
  obtain hopener | hcloser := hlive
  · have hup := height_opener hopener
    obtain ⟨last, hlast, hpartners⟩ | hnot := closed_or_above hopener hend
    · exact ⟨offset, last, hstart, hlast, hpartners, .inl rfl⟩
    · have hle := hnot closer hend (Nat.le_refl closer)
      omega
  · have hdown := height_closer hcloser
    have hnext := h.between.above (offset + 1) (Nat.succ_le_succ (Nat.le_of_lt hstart)) hend
    have hlow : height t (opener + 1) < height t offset := by omega
    obtain ⟨first, hfirst, hpartners⟩ := exists_opener hcloser hstart hlow
    exact ⟨first, offset, hfirst, hend, hpartners, .inr rfl⟩

/-- Two pairs with different second braces share no brace. -/
theorem Partners.disjoint {opener' closer' : Nat} (h : Partners t opener closer)
    (h' : Partners t opener' closer') (hne : closer ≠ closer') :
    List.Disjoint [opener, closer] [opener', closer'] := by
  have hopener : opener ≠ opener' := by
    rintro rfl
    exact hne (h.closer_unique h')
  have hmixed : opener ≠ closer' := by
    rintro rfl
    exact absurd (h.opens.unique h'.closes) (by decide)
  have hmixed' : closer ≠ opener' := by
    rintro rfl
    exact absurd (h'.opens.unique h.closes) (by decide)
  simp [hopener.symm, hmixed.symm, hmixed'.symm, hne.symm]

end

/-- No brace of a text is in two pairs. -/
theorem nodup_bracePairs (t : Text) :
    ((bracePairs t).flatMap fun pair => [pair.1, pair.2]).Nodup := by
  refine List.nodup_flatMap.mpr ⟨?_, ?_⟩
  · intro pair hpair
    have hlt := (mem_bracePairs_iff.mp hpair).lt
    simp [Nat.ne_of_lt hlt]
  · refine (pairwise_bracePairsFrom none [] 0 t).imp_of_mem ?_
    intro pair other hpair hother hlt
    exact (mem_bracePairs_iff.mp hpair).disjoint (mem_bracePairs_iff.mp hother) (Nat.ne_of_lt hlt)

/-- The pairs of braces of a text are a well-nested matching, whatever the text. -/
theorem bracePairs_wellNested (t : Text) : WellNested t (bracePairs t) where
  lt pair hpair := (mem_bracePairs_iff.mp hpair).lt
  opens pair hpair := (mem_bracePairs_iff.mp hpair).opens
  closes pair hpair := (mem_bracePairs_iff.mp hpair).closes
  once := nodup_bracePairs t
  laminar := by
    intro pair hpair other hother hne
    have hpair := mem_bracePairs_iff.mp hpair
    have hother := mem_bracePairs_iff.mp hother
    rcases Nat.lt_trichotomy pair.1 other.1 with hlt | heq | hgt
    · have hnested := hpair.nested hother hlt
      omega
    · rw [heq] at hpair
      exact absurd (Prod.ext heq (hpair.closer_unique hother)) hne
    · have hnested := hother.nested hpair hgt
      omega
  inside := by
    intro pair hpair offset hstart hend hlive
    obtain ⟨first, last, hfirst, hlast, hpartners, hends⟩ :=
      (mem_bracePairs_iff.mp hpair).exists_inner hstart hend hlive
    exact ⟨(first, last), mem_bracePairs_iff.mpr hpartners, hfirst, hlast, hends⟩
  unpaired_iff := by
    intro opener hopener
    rw [← not_exists, ← not_exists, not_iff_not, ← exists_partner_iff hopener]
    exact exists_congr fun closer => mem_bracePairs_iff

/-- The first brace closes nothing, the second one is never closed, and the third one is in a string. -/
example : bracePairs "\x7d a \x7b '\x7d' b \x7b\x7d" = [(12, 13)] := by
  decide +kernel

end ComponentAudit.Sheet
