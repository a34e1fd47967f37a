import ComponentAudit.Proofs.Script.Literal
import ComponentAudit.Script.Function
import Mathlib.Data.Nat.Find

/-! # Closing brackets and string literals

The search for a closing bracket reads string literals by a rule of its own: a quote right behind a
backslash does not end a literal, not even if the backslash is escaped itself. For that rule it finds the
first place where the depth is zero (`isFirst_closing?`). That rule and the one of escapes stay in step
until a literal ends behind a backslash (`inStep_slice`), and from there on the search takes for a literal
what is code (`exists_missed`). So it respects escapes exactly where no literal ends so
(`closing_escapes_iff`). -/

namespace ComponentAudit.Bracket

open LiteralMode (outside)

/-- The characters of a text outside string literals. -/
def unquoted (rule : EscapeRule) : LiteralMode → Text → Text
  | _, [] => []
  | mode, c :: rest =>
    if mode = .outside ∧ isQuote c = false then c :: unquoted rule (mode.next rule c) rest
    else unquoted rule (mode.next rule c) rest

/-- The openers less the closers outside string literals. -/
def depth (rule : EscapeRule) (opener closer : Char) (mode : LiteralMode) (t : Text) : Int :=
  (unquoted rule mode t).count opener - (unquoted rule mode t).count closer

/-- An opening bracket and its closing partner. -/
structure IsPair (opener closer : Char) : Prop where
  ne : opener ≠ closer
  isQuote_opener : isQuote opener = false
  isQuote_closer : isQuote closer = false

/-- From `start` to `stop`, both included, there are as many closers as openers. -/
structure Closes (rule : EscapeRule) (opener closer : Char) (t : Text) (start stop : Nat) : Prop where
  lt : start < stop
  inside : stop < t.length
  balanced : depth rule opener closer .outside (t.slice start (stop + 1)) = 0

/-- No literal ends behind a backslash as long as the bracket is open. -/
def Plain (opener closer : Char) (t : Text) (start : Nat) : Prop :=
  ∀ place, EndsEscaped t start place → ∃ stop < place, Closes escaping opener closer t start stop

/-- The least number with a property, or none if there is no such number. -/
def IsFirst (p : Nat → Prop) : Option Nat → Prop
  | some n => p n ∧ ∀ m, p m → n ≤ m
  | none => ∀ n, ¬p n

/-! ## Least numbers -/

namespace IsFirst

variable {p q : Nat → Prop} {result : Option Nat}

theorem congr (h : IsFirst p result) (hpq : ∀ n, p n ↔ q n) : IsFirst q result := by
  have heq : p = q := funext fun n => propext (hpq n)
  rwa [← heq]

theorem map_add (h : IsFirst p result) (offset : Nat) :
    IsFirst (fun n => ∃ m, n = offset + m ∧ p m) (result.map (offset + ·)) := by
  cases result with
  | none =>
    rintro n ⟨m, -, hm⟩
    exact h m hm
  | some least =>
    refine ⟨⟨least, rfl, h.1⟩, ?_⟩
    rintro n ⟨m, rfl, hm⟩
    exact Nat.add_le_add_left (h.2 m hm) offset

theorem exists_least {m : Nat} (h : q m) : ∃ n ≤ m, q n ∧ ∀ k < n, ¬q k := by
  classical
  exact ⟨Nat.find ⟨m, h⟩, Nat.find_min' ⟨m, h⟩ h, Nat.find_spec ⟨m, h⟩, fun k hk => Nat.find_min _ hk⟩

/-- Two properties that agree up to the first number with one of them have the same first number. -/
theorem transfer (h : IsFirst p result) (hpq : ∀ n, (∀ m < n, ¬q m) → (p n ↔ q n)) :
    IsFirst q result := by
  cases result with
  | none =>
    intro m hm
    obtain ⟨n, -, hn, hbefore⟩ := exists_least hm
    exact h n ((hpq n hbefore).mpr hn)
  | some least =>
    have hle : ∀ m, q m → least ≤ m := by
      intro m hm
      obtain ⟨n, hnm, hn, hbefore⟩ := exists_least hm
      exact Nat.le_trans (h.2 n ((hpq n hbefore).mpr hn)) hnm
    refine ⟨(hpq least fun m hm hqm => ?_).mp h.1, hle⟩
    exact absurd (hle m hqm) (Nat.not_le_of_lt hm)

end IsFirst

/-! ## Depth -/

section

variable {rule : EscapeRule} {opener closer : Char}

theorem unquoted_append (mode : LiteralMode) (s t : Text) :
    unquoted rule mode (s ++ t) = unquoted rule mode s ++ unquoted rule (mode.read rule s) t := by
  induction s generalizing mode with
  | nil => rfl
  | cons c s ih =>
    rw [List.cons_append, unquoted, unquoted, ih]
    split <;> rfl

theorem depth_append (mode : LiteralMode) (s t : Text) :
    depth rule opener closer mode (s ++ t) =
      depth rule opener closer mode s + depth rule opener closer (mode.read rule s) t := by
  simp only [depth, unquoted_append, List.count_append]
  omega

theorem depth_cons (mode : LiteralMode) (c : Char) (t : Text) :
    depth rule opener closer mode (c :: t) =
      depth rule opener closer mode [c] + depth rule opener closer (mode.next rule c) t :=
  depth_append mode [c] t

/-- A character in a literal does not count. -/
theorem depth_inside (q : Char) (escaped : Bool) (c : Char) :
    depth rule opener closer (.inside q escaped) [c] = 0 := by
  simp [depth, unquoted]

theorem depth_outside {c : Char} (h : isQuote c = false) :
    depth rule opener closer .outside [c] =
      (if c == opener then 1 else 0) - (if c == closer then 1 else 0) := by
  simp only [depth, unquoted, h, and_self, if_true, List.count_singleton]
  split <;> split <;> rfl

theorem depth_quote {c : Char} (h : isQuote c = true) (mode : LiteralMode) :
    depth rule opener closer mode [c] = 0 := by
  simp [depth, unquoted, h]

/-! ## The search -/

/-- The mode of the search, which keeps the open quote and the character just passed. -/
def modeOf (quote : Option Char) (prev : Char) : LiteralMode :=
  match quote with
  | none => .outside
  | some q => .inside q (prev == '\\')

/-- `Closes` for a search that goes on at a depth of `start`. -/
def ClosedAt (rule : EscapeRule) (opener closer : Char) (mode : LiteralMode) (start : Int) (t : Text)
    (n : Nat) : Prop :=
  n < t.length ∧ start + depth rule opener closer mode (t.take (n + 1)) = 0

theorem closedAt_succ {mode : LiteralMode} {start : Int} {c : Char} {t : Text} {n : Nat} :
    ClosedAt rule opener closer mode start (c :: t) (n + 1) ↔
      ClosedAt rule opener closer (mode.next rule c) (start + depth rule opener closer mode [c]) t n := by
  rw [ClosedAt, ClosedAt, List.length_cons, Nat.add_lt_add_iff_right, List.take_succ_cons, depth_cons,
    Int.add_assoc]

/-- A search that does not end at the first character goes on behind it. -/
theorem IsFirst.cons {mode mode' : LiteralMode} {start start' : Int} {c : Char} {t : Text} {offset : Nat}
    {result : Option Nat} (hmode : mode.next rule c = mode')
    (hstart : start + depth rule opener closer mode [c] = start') (hne : start' ≠ 0)
    (h : IsFirst (fun p => ∃ n, p = offset + 1 + n ∧ ClosedAt rule opener closer mode' start' t n) result) :
    IsFirst (fun p => ∃ n, p = offset + n ∧ ClosedAt rule opener closer mode start (c :: t) n) result := by
  subst hmode hstart
  refine h.congr fun p => ⟨?_, ?_⟩
  · rintro ⟨n, rfl, hn⟩
    exact ⟨n + 1, by omega, closedAt_succ.mpr hn⟩
  · rintro ⟨_ | n, rfl, hn⟩
    · exact absurd hn.2 hne
    · exact ⟨n, by omega, closedAt_succ.mp hn⟩

/-- The search finds the first place where the depth is zero, by its own reading of the literals. -/
theorem isFirst_closingFrom (hne : opener ≠ closer) (start : Int) (hstart : 0 < start)
    (quote : Option Char) (prev : Char) (offset : Nat) (t : Text) :
    IsFirst (fun p => ∃ n, p = offset + n ∧
        ClosedAt adjacent opener closer (modeOf quote prev) start t n)
      (closingFrom opener closer start quote prev offset t) := by
  fun_induction closingFrom opener closer start quote prev offset t with
  | case1 =>
    rintro p ⟨n, -, hn, -⟩
    cases hn
  | case2 start q prev offset c rest ih =>
    refine (ih hstart).cons ?_ ?_ (by omega)
    · simp only [modeOf, LiteralMode.next, adjacent, bne]
      split <;> rfl
    · rw [modeOf, depth_inside, Int.add_zero]
  | case3 prev start offset c rest hquote ih =>
    refine (ih hstart).cons ?_ ?_ (by omega)
    · simp only [modeOf, LiteralMode.next, hquote, if_true, ne_backslash_of_isQuote hquote]
    · rw [depth_quote hquote, Int.add_zero]
  | case4 prev start offset c rest hquote hopen ih =>
    rw [Bool.not_eq_true] at hquote
    have hclose : (c == closer) = false := by
      rw [eq_of_beq hopen]
      exact beq_eq_false_iff_ne.mpr hne
    refine (ih (by omega)).cons (LiteralMode.next_outside hquote) ?_ (by omega)
    rw [modeOf, depth_outside hquote, hopen, hclose]
    rfl
  | case5 prev start offset c rest hquote hopen hclose hzero =>
    rw [Bool.not_eq_true] at hquote hopen
    have hdepth : depth adjacent opener closer .outside [c] = -1 := by
      rw [depth_outside hquote, hopen, hclose]
      rfl
    refine ⟨⟨0, rfl, Nat.zero_lt_succ _, ?_⟩, ?_⟩
    · rw [List.take_succ_cons, List.take_zero, modeOf, hdepth]
      exact eq_of_beq hzero
    · rintro p ⟨n, rfl, -⟩
      exact Nat.le_add_right offset n
  | case6 prev start offset c rest hquote hopen hclose hzero ih =>
    rw [Bool.not_eq_true] at hquote hopen
    have hzero : start - 1 ≠ 0 := fun h => hzero (beq_iff_eq.mpr h)
    refine (ih (by omega)).cons (LiteralMode.next_outside hquote) ?_ hzero
    rw [modeOf, depth_outside hquote, hopen, hclose]
    rfl
  | case7 prev start offset c rest hquote hopen hclose ih =>
    rw [Bool.not_eq_true] at hquote hopen hclose
    refine (ih hstart).cons (LiteralMode.next_outside hquote) ?_ (by omega)
    rw [modeOf, depth_outside hquote, hopen, hclose]
    exact Int.add_zero start

/-- The opener itself counts one. -/
theorem depth_opener (h : IsPair opener closer) (t : Text) :
    depth rule opener closer .outside (opener :: t) = 1 + depth rule opener closer .outside t := by
  have hother : (opener == closer) = false := beq_eq_false_iff_ne.mpr h.ne
  rw [depth_cons, LiteralMode.next_outside h.isQuote_opener, depth_outside h.isQuote_opener,
    beq_self_eq_true, hother]
  rfl

theorem drop_of_getElem? {t : Text} {start : Nat} {c : Char} (h : t[start]? = some c) :
    t.drop start = c :: t.drop (start + 1) := by
  rw [List.drop_eq_getElem?_toList_append, h]
  rfl

theorem closes_iff_closedAt (h : IsPair opener closer) {t : Text} {start stop : Nat}
    (hstart : t[start]? = some opener) :
    Closes rule opener closer t start stop ↔ ∃ m, stop = start + m ∧ ∃ n, m = 1 + n ∧
      ClosedAt rule opener closer .outside 1 (t.drop (start + 1)) n := by
  have hslice : ∀ n, t.slice start (start + (1 + n) + 1) = opener :: (t.drop (start + 1)).take (n + 1) := by
    intro n
    rw [Text.slice, drop_of_getElem? hstart,
      show start + (1 + n) + 1 - start = n + 1 + 1 by omega, List.take_succ_cons]
  constructor
  · rintro ⟨hlt, hinside, hbalanced⟩
    obtain ⟨n, rfl⟩ : ∃ n, stop = start + (1 + n) := ⟨stop - start - 1, by omega⟩
    rw [hslice, depth_opener h] at hbalanced
    refine ⟨1 + n, rfl, n, rfl, ?_, hbalanced⟩
    rw [List.length_drop]
    omega
  · rintro ⟨m, rfl, n, rfl, hn, hbalanced⟩
    rw [List.length_drop] at hn
    refine ⟨by omega, by omega, ?_⟩
    rw [hslice, depth_opener h]
    exact hbalanced

/-- What the search finds, in every text. -/
theorem isFirst_closing? (h : IsPair opener closer) {t : Text} {start : Nat}
    (hstart : t[start]? = some opener) :
    IsFirst (Closes adjacent opener closer t start)
      ((closing? opener closer (t.drop start)).map (start + ·)) := by
  have hsearch := (isFirst_closingFrom h.ne 1 (by decide) none opener 1 (t.drop (start + 1))).map_add start
  have hclosing : closing? opener closer (t.drop start) =
      closingFrom opener closer 1 none opener 1 (t.drop (start + 1)) := by
    rw [drop_of_getElem? hstart, closing?, beq_self_eq_true]
    rfl
  rw [hclosing]
  exact hsearch.congr fun stop => (closes_iff_closedAt h hstart).symm

end

/-! ## The depth by the two rules -/

section

variable {opener closer : Char} {t : Text} {start place : Nat}

/-- Modes in step count a character alike. -/
theorem depth_of_inStep {mode mode' : LiteralMode} (h : InStep mode mode') (c : Char) :
    depth adjacent opener closer mode [c] = depth escaping opener closer mode' [c] := by
  cases h with
  | outside => rfl
  | inside q h => rw [depth_inside, depth_inside]

/-- The rules count alike up to the first literal that ends behind a backslash, its quote included. -/
theorem depth_slice (hle : start ≤ place) (h : ∀ m, m + 1 < place → ¬EndsEscaped t start m) :
    depth adjacent opener closer .outside (t.slice start place) =
      depth escaping opener closer .outside (t.slice start place) := by
  induction place, hle using Nat.le_induction with
  | base => rw [Text.slice_self]; rfl
  | succ place hle ih =>
    have hdepth := ih fun m hm => h m (by omega)
    have hstep := inStep_slice hle fun m hm => h m (by omega)
    rw [Text.slice_succ hle, depth_append, depth_append, hdepth]
    cases t[place]? with
    | none => rfl
    | some c => exact congrArg _ (depth_of_inStep hstep c)

/-- If no literal ends behind a backslash before the bracket is closed, the search respects escapes. -/
theorem isFirst_closing?_escaping (hpair : IsPair opener closer) (hstart : t[start]? = some opener)
    (h : Plain opener closer t start) :
    IsFirst (Closes escaping opener closer t start)
      ((closing? opener closer (t.drop start)).map (start + ·)) := by
  refine (isFirst_closing? hpair hstart).transfer fun stop hbefore => ?_
  have hclear : ∀ m, m + 1 < stop + 1 → ¬EndsEscaped t start m := by
    intro m hm hends
    obtain ⟨earlier, hlt, hcloses⟩ := h m hends
    exact hbefore earlier (by omega) hcloses
  constructor
  · rintro ⟨hlt, hinside, hbalanced⟩
    rw [depth_slice (by omega) hclear] at hbalanced
    exact ⟨hlt, hinside, hbalanced⟩
  · rintro ⟨hlt, hinside, hbalanced⟩
    rw [← depth_slice (by omega) hclear] at hbalanced
    exact ⟨hlt, hinside, hbalanced⟩

/-! ## Where the rules part -/

section

variable {rule : EscapeRule}

theorem neg_one_le_depth (mode : LiteralMode) (c : Char) : -1 ≤ depth rule opener closer mode [c] := by
  cases hquote : isQuote c with
  | true =>
    rw [depth_quote hquote]
    decide
  | false =>
    cases mode with
    | outside =>
      rw [depth_outside hquote]
      split <;> split <;> decide
    | inside q escaped =>
      rw [depth_inside]
      decide

/-- As long as the bracket is not closed, the depth is positive. -/
theorem depth_pos (hpair : IsPair opener closer) (hstart : t[start]? = some opener) (hlt : start < place)
    (hinside : place ≤ t.length) (h : ∀ stop < place, ¬Closes rule opener closer t start stop) :
    0 < depth rule opener closer .outside (t.slice start place) := by
  induction place, hlt using Nat.le_induction with
  | base =>
    rw [Text.slice_succ (Nat.le_refl start), Text.slice_self, hstart]
    change 0 < depth rule opener closer .outside [opener]
    rw [depth_opener hpair]
    exact Int.one_pos
  | succ place hlt ih =>
    have hpos := ih (by omega) fun stop hstop => h stop (by omega)
    have hne : depth rule opener closer .outside (t.slice start (place + 1)) ≠ 0 := fun hzero =>
      h place (Nat.lt_succ_self place) ⟨hlt, hinside, hzero⟩
    rw [Text.slice_succ (Nat.le_of_lt hlt), depth_append, List.getElem?_eq_getElem hinside] at hne ⊢
    have hstep := @neg_one_le_depth opener closer rule
      (outside.read rule (t.slice start place)) t[place]
    change _ + depth rule opener closer _ [t[place]] ≠ 0 at hne
    change 0 < _ + depth rule opener closer _ [t[place]]
    omega

theorem isQuote_closers (hpair : IsPair opener closer) (n : Nat) :
    ∀ c ∈ List.replicate n closer, isQuote c = false := by
  intro c hc
  rw [List.eq_of_mem_replicate hc]
  exact hpair.isQuote_closer

/-- Closers outside literals count one each. -/
theorem depth_closers (hpair : IsPair opener closer) (n : Nat) :
    depth rule opener closer .outside (List.replicate n closer) = -n := by
  have hother : (closer == opener) = false := beq_eq_false_iff_ne.mpr hpair.ne.symm
  induction n with
  | zero => rfl
  | succ n ih =>
    rw [List.replicate_succ, depth_cons, LiteralMode.next_outside hpair.isQuote_closer, ih,
      depth_outside hpair.isQuote_closer, hother, beq_self_eq_true]
    simp only [Bool.false_eq_true, if_false, if_true]
    omega

/-- A text that leaves brackets open, and no literal, is closed by as many closers. -/
theorem exists_closes (hpair : IsPair opener closer) {front : Text} (hlength : 1 < front.length)
    (hread : outside.read rule front = .outside) (hdepth : 0 ≤ depth rule opener closer .outside front) :
    ∃ n stop, Closes rule opener closer (front ++ List.replicate n closer) 0 stop := by
  obtain ⟨n, hn⟩ := Int.eq_ofNat_of_zero_le hdepth
  obtain ⟨stop, hstop⟩ : ∃ stop, (front ++ List.replicate n closer).length = stop + 1 :=
    ⟨front.length + n - 1, by rw [List.length_append, List.length_replicate]; omega⟩
  have hle : front.length ≤ stop + 1 := hstop ▸ List.length_append ▸ Nat.le_add_right _ _
  refine ⟨n, stop, by omega, by omega, ?_⟩
  rw [← hstop, Text.slice_zero_length, depth_append, hread, depth_closers hpair, hn]
  exact Int.add_right_neg _

/-- A literal goes on over a text without quotes. -/
theorem depth_unclosed {q : Char} (hq : isQuote q = true) (escaped : Bool) {u : Text}
    (hu : ∀ c ∈ u, isQuote c = false) : depth rule opener closer (.inside q escaped) u = 0 := by
  induction u generalizing escaped with
  | nil => rfl
  | cons c u ih =>
    obtain ⟨hc, hu⟩ := List.forall_mem_cons.mp hu
    have hne : (c == q) = false := by
      refine beq_eq_false_iff_ne.mpr ?_
      rintro rfl
      rw [hc] at hq
      cases hq
    have hnext : (LiteralMode.inside q escaped).next rule c = .inside q (rule escaped c) := by
      rw [LiteralMode.next, hne]
      rfl
    rw [depth_cons, depth_inside, hnext, ih _ hu]
    rfl

end

/-- A search that runs into a literal finds nothing in a text without further quotes. -/
theorem closing?_unclosed (hpair : IsPair opener closer) {front rest : Text} {q : Char} {marked : Bool}
    (hhead : front[0]? = some opener)
    (hpos : ∀ n, 0 < n → n ≤ front.length → 0 < depth adjacent opener closer .outside (front.take n))
    (hread : outside.read adjacent front = .inside q marked)
    (hrest : ∀ c ∈ rest, isQuote c = false) : closing? opener closer (front ++ rest) = none := by
  have hlength : 0 < front.length := (List.getElem?_eq_some_iff.mp hhead).1
  have hstart : (front ++ rest)[0]? = some opener := by
    rw [List.getElem?_append_left hlength, hhead]
  have hfound := isFirst_closing? hpair hstart
  rw [List.drop_zero] at hfound
  cases hclosing : closing? opener closer (front ++ rest) with
  | none => rfl
  | some stop =>
    rw [hclosing, Option.map_some, Nat.zero_add] at hfound
    have hbalanced := hfound.1.balanced
    have hunquoted : ∀ c ∈ rest.take (stop + 1 - front.length), isQuote c = false :=
      fun c hc => hrest c (List.mem_of_mem_take hc)
    have hquote := LiteralMode.isQuote_of_read hread
    rw [Text.slice, List.drop_zero, Nat.sub_zero, List.take_append, depth_append] at hbalanced
    by_cases hin : stop + 1 ≤ front.length
    · rw [Nat.sub_eq_zero_of_le hin, List.take_zero] at hbalanced
      exact absurd ((Int.add_zero _).symm.trans hbalanced) (Int.ne_of_gt (hpos _ (Nat.succ_pos _) hin))
    · rw [List.take_of_length_le (by omega), hread, depth_unclosed hquote marked hunquoted,
        Int.add_zero, ← List.take_length (l := front)] at hbalanced
      exact absurd hbalanced (Int.ne_of_gt (hpos _ hlength (Nat.le_refl _)))

/-- The quote that ends a literal does not close the bracket. -/
theorem not_closes_behind (hpair : IsPair opener closer) (hstart : t[start]? = some opener)
    (hends : EndsEscaped t start place)
    (h : ∀ stop < place, ¬Closes escaping opener closer t start stop) :
    ∀ stop < place + 1, ¬Closes escaping opener closer t start stop := by
  intro stop hstop hcloses
  obtain hstop | rfl := Nat.lt_succ_iff_lt_or_eq.mp hstop
  · exact h stop hstop hcloses
  · have hpos := depth_pos hpair hstart hends.lt (Nat.le_of_lt hends.lt_length) h
    have hbalanced := hcloses.balanced
    obtain ⟨q, hq, hread, -⟩ := hends
    rw [Text.slice_succ (Nat.le_of_lt hcloses.lt), hq, Option.toList_some, depth_append, hread,
      depth_inside, Int.add_zero] at hbalanced
    omega

/-- Behind a literal that ends behind a backslash, the search takes everything for a part of the
literal: closers behind it close the bracket, and the search finds none of them. -/
theorem exists_missed (hpair : IsPair opener closer) (hstart : t[start]? = some opener)
    (hends : EndsEscaped t start place)
    (h : ∀ stop < place, ¬Closes escaping opener closer t start stop) :
    ∃ front rest, front ≠ [] ∧ front <+: t.drop start ∧ (∀ c ∈ rest, isQuote c = false) ∧
      (∃ stop, Closes escaping opener closer (front ++ rest) 0 stop) ∧
      closing? opener closer (front ++ rest) = none := by
  -- the rules part at the first such literal
  obtain ⟨first, hfirst, hends, hbefore⟩ := IsFirst.exists_least (q := EndsEscaped t start) hends
  have hlt := hends.lt
  have hinside := hends.lt_length
  obtain ⟨hescaping, q, marked, hadjacent⟩ := read_behind hends hbefore
  have hopen := not_closes_behind hpair hstart hends fun stop hstop => h stop (by omega)
  have hpos : ∀ stop, start < stop → stop ≤ first + 1 →
      0 < depth escaping opener closer .outside (t.slice start stop) :=
    fun stop hlt hle => depth_pos hpair hstart hlt (by omega) fun m hm => hopen m (by omega)
  have hfront : (t.slice start (first + 1)).length = first + 1 - start := Text.length_slice start hinside
  obtain ⟨n, stop, hcloses⟩ := exists_closes hpair (by omega) hescaping
    (Int.le_of_lt (hpos (first + 1) (by omega) (Nat.le_refl _)))
  have hrest := isQuote_closers hpair n
  refine ⟨t.slice start (first + 1), List.replicate n closer, ?_, List.take_prefix _ _, hrest,
    ⟨stop, hcloses⟩, closing?_unclosed hpair ?_ ?_ hadjacent hrest⟩
  · rw [← List.length_pos_iff, hfront]
    omega
  · rw [Text.slice, List.getElem?_take_of_lt (by omega), List.getElem?_drop, Nat.add_zero, hstart]
  · intro place hlt hle
    rw [hfront] at hle
    have htake := @Text.take_slice t start (start + place) (first + 1) (by omega)
    rw [Nat.add_sub_cancel_left] at htake
    rw [htake, depth_slice (by omega) fun m hm => hbefore m (by omega)]
    exact hpos _ (by omega) (by omega)

/-! ## Where the search respects escapes -/

section

variable {front rest : Text}

theorem slice_of_front (hfront : front <+: t.drop start) (rest : Text) {n : Nat} (hn : n ≤ front.length) :
    (front ++ rest).slice 0 n = t.slice start (start + n) := by
  obtain ⟨more, hmore⟩ := hfront
  rw [Text.slice, Text.slice, ← hmore, List.drop_zero, Nat.sub_zero, Nat.add_sub_cancel_left,
    List.take_append_of_le_length hn, List.take_append_of_le_length hn]

theorem getElem?_of_front (hfront : front <+: t.drop start) (rest : Text) {n : Nat}
    (hn : n < front.length) : (front ++ rest)[n]? = t[start + n]? := by
  obtain ⟨more, hmore⟩ := hfront
  rw [← List.getElem?_drop, ← hmore, List.getElem?_append_left hn, List.getElem?_append_left hn]

/-- Text without quotes adds no literal. -/
theorem Plain.append (h : Plain opener closer t start) (hfront : front <+: t.drop start)
    (hrest : ∀ c ∈ rest, isQuote c = false) : Plain opener closer (front ++ rest) 0 := by
  rintro n ⟨q, hq, hread, hlast⟩
  have hn : n < front.length := by
    by_contra hle
    rw [List.getElem?_append_right (by omega)] at hq
    have hquote := LiteralMode.isQuote_of_read hread
    rw [hrest q (List.mem_of_getElem? hq)] at hquote
    cases hquote
  rw [slice_of_front hfront rest (Nat.le_of_lt hn)] at hread hlast
  rw [getElem?_of_front hfront rest hn] at hq
  obtain ⟨stop, hstop, hlt, hinside, hbalanced⟩ := h (start + n) ⟨q, hq, hread, hlast⟩
  obtain ⟨m, rfl⟩ : ∃ m, stop = start + m := ⟨stop - start, by omega⟩
  rw [Nat.add_assoc, ← slice_of_front hfront rest (by omega)] at hbalanced
  refine ⟨m, by omega, by omega, ?_, hbalanced⟩
  rw [List.length_append]
  omega

end

/-- The search finds the first place where the bracket is closed if every backslash in a literal escapes
what is behind it, even an escaped one. That is the first place with regard to escapes if no literal ends
behind a backslash while the bracket is open, and only then is it so for every text that has a
beginning in common with this one and goes on without quotes. -/
theorem closing_escapes_iff (hpair : IsPair opener closer) (hstart : t[start]? = some opener) :
    IsFirst (Closes adjacent opener closer t start)
        ((closing? opener closer (t.drop start)).map (start + ·)) ∧
      (Plain opener closer t start →
        IsFirst (Closes escaping opener closer t start)
          ((closing? opener closer (t.drop start)).map (start + ·))) ∧
      (Plain opener closer t start ↔
        ∀ front rest, front ≠ [] → front <+: t.drop start → (∀ c ∈ rest, isQuote c = false) →
          IsFirst (Closes escaping opener closer (front ++ rest) 0)
            (closing? opener closer (front ++ rest))) := by
  refine ⟨isFirst_closing? hpair hstart, isFirst_closing?_escaping hpair hstart, ?_, ?_⟩
  · intro hplain front rest hne hfront hrest
    have hhead : (front ++ rest)[0]? = some opener := by
      rw [getElem?_of_front hfront rest (List.length_pos_iff.mpr hne), Nat.add_zero, hstart]
    have hfirst := isFirst_closing?_escaping hpair hhead (hplain.append hfront hrest)
    simpa using hfirst
  · intro hright place hends
    by_contra hopen
    have hopen : ∀ stop < place, ¬Closes escaping opener closer t start stop :=
      fun stop hstop hcloses => hopen ⟨stop, hstop, hcloses⟩
    obtain ⟨front, rest, hne, hfront, hrest, ⟨stop, hcloses⟩, hnone⟩ :=
      exists_missed hpair hstart hends hopen
    have hfirst := hright front rest hne hfront hrest
    rw [hnone] at hfirst
    exact hfirst stop hcloses

/-- A call whose first argument holds an escaped quote and a bracket. -/
def callText : Text := "f('a\\')', x)"

theorem closing_escapes_iff_call :
    IsPair '(' ')' ∧ callText[1]? = some '(' ∧ Plain '(' ')' callText 1 ∧
      IsFirst (Closes escaping '(' ')' callText 1) (some 11) := by
  have hpair : IsPair '(' ')' := ⟨by decide, by decide, by decide⟩
  have hnone : ∀ place < callText.length, ¬EndsEscaped callText 1 place := by decide
  have hplain : Plain '(' ')' callText 1 := fun place hends => absurd hends (hnone place hends.lt_length)
  exact ⟨hpair, rfl, hplain, (closing_escapes_iff hpair rfl).2.1 hplain⟩

/-- A literal that is one escaped backslash, in brackets. -/
def backslashText : Text := "(\"\\\\\")"

/-- The bracket behind an escaped backslash is not found, and a function with such a default is lost. -/
theorem closing_missed :
    EndsEscaped backslashText 0 4 ∧ IsFirst (Closes escaping '(' ')' backslashText 0) (some 5) ∧
      closing? '(' ')' backslashText = none ∧
      (Function.findAll ("const f = " ++ backslashText ++ " => a;")).map (·.name) = [] ∧
      (Function.findAll "const f = (a = \"\") => a;").map (·.name) = [("f" : Text)] := by
  refine ⟨by decide, ⟨⟨by decide, by decide, by decide⟩, fun stop hcloses => ?_⟩,
    by decide, ?_, ?_⟩
  · have hopen : ∀ stop < 5, 0 < stop →
        depth escaping '(' ')' .outside (backslashText.slice 0 (stop + 1)) ≠ 0 := by decide
    by_contra hlt
    exact hopen stop (by omega) hcloses.lt hcloses.balanced
  · decide +kernel
  · decide +kernel

end

end ComponentAudit.Bracket
