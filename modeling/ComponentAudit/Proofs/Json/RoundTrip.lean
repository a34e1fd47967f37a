import ComponentAudit.Proofs.Json.Scalar

/-! # A written value reads back

The text of a value, whatever follows it, is read as that value and what follows. The only values that
need something to end them are numbers, and in a text a number is followed by a comma, a line feed or
nothing. The bound of the reader is met because each bracket and each comma is a character of its own. -/

namespace ComponentAudit

/-- A text of ASCII characters. -/
def Text.IsAscii (t : Text) : Prop := ∀ c ∈ t, c.toNat < 128

namespace Json

/-- Induction over values, with arrays and objects known through their parts. -/
@[elab_as_elim]
theorem nested_induction {motive : Json → Prop} (null : motive .null) (bool : ∀ b, motive (.bool b))
    (int : ∀ n, motive (.int n)) (decimal : ∀ m e, motive (.decimal m e))
    (nonFinite : motive .nonFinite) (str : ∀ t, motive (.str t))
    (arr : ∀ items, (∀ item ∈ items, motive item) → motive (.arr items))
    (obj : ∀ members, (∀ member ∈ members, motive member.2) → motive (.obj members)) :
    ∀ value, motive value
  | .null => null
  | .bool b => bool b
  | .int n => int n
  | .decimal m e => decimal m e
  | .nonFinite => nonFinite
  | .str t => str t
  | .arr items => arr items fun item _ =>
    nested_induction null bool int decimal nonFinite str arr obj item
  | .obj members => obj members fun member _ =>
    nested_induction null bool int decimal nonFinite str arr obj member.2
termination_by value => sizeOf value
decreasing_by
  · rename_i hmem
    have hlt := List.sizeOf_lt_of_mem hmem
    simp only [ComponentAudit.Json.arr.sizeOf_spec]
    omega
  · rename_i hmem
    have hlt := List.sizeOf_lt_of_mem hmem
    have hpair : sizeOf member.2 < sizeOf member := by
      cases member
      simp only [Prod.mk.sizeOf_spec]
      omega
    simp only [ComponentAudit.Json.obj.sizeOf_spec]
    omega

/-! ## Blanks -/

theorem skipBlank_newline (level : Nat) (t : Text) : skipBlank (newline level ++ t) = skipBlank t := by
  have hblank : ∀ c ∈ newline level, isBlankChar c = true := by
    intro c hc
    rcases List.mem_cons.mp hc with rfl | hc
    · decide
    · rw [List.eq_of_mem_replicate hc]
      decide
  exact List.dropWhile_append_of_pos hblank

theorem skipBlank_cons {c : Char} (h : isBlankChar c = false) (t : Text) :
    skipBlank (c :: t) = c :: t := by
  simp [skipBlank, h]

theorem value?_newline (bound level : Nat) (t : Text) :
    value? bound (newline level ++ t) = value? bound t := by
  cases bound with
  | zero => rfl
  | succ bound => rw [value?, value?, skipBlank_newline]

theorem items?_newline (bound level : Nat) (t : Text) :
    items? bound (newline level ++ t) = items? bound t := by
  cases bound with
  | zero => rfl
  | succ bound => rw [items?, items?, value?_newline]

theorem members?_newline (bound level : Nat) (t : Text) :
    members? bound (newline level ++ t) = members? bound t := by
  cases bound with
  | zero => rfl
  | succ bound => rw [members?, members?, skipBlank_newline]

/-! ## Words and numbers -/

theorem ne_of_digit {d : Char} (h : isAsciiDigit d = true) (c : Char) (hc : isAsciiDigit c = false) :
    d ≠ c := by
  rintro rfl
  rw [h] at hc
  cases hc

theorem isBlankChar_of_digit {d : Char} (h : isAsciiDigit d = true) : isBlankChar d = false := by
  have hne := ne_of_digit h
  simp [isBlankChar, hne ' ' rfl, hne '\t' rfl, hne '\n' rfl, hne '\r' rfl]

theorem exists_cons_ofNat (n : Nat) :
    ∃ d digits, Text.ofNat n = d :: digits ∧ isAsciiDigit d = true := by
  obtain ⟨d, digits, hd⟩ : ∃ d digits, Text.ofNat n = d :: digits :=
    List.exists_cons_of_ne_nil Nat.toDigits_ne_nil
  exact ⟨d, digits, hd, isAsciiDigit_of_mem_ofNat (n := n) (by simp [hd])⟩

theorem value?_ofNat (bound n : Nat) (rest : Text) :
    value? (bound + 1) (Text.ofNat n ++ rest) = number? 1 (Text.ofNat n ++ rest) := by
  obtain ⟨d, digits, hd, hdigit⟩ := exists_cons_ofNat n
  have hne := ne_of_digit hdigit
  have hword : word? (d :: (digits ++ rest)) = none := by
    simp [word?, Text.dropPrefix?, (hne 'n' rfl).symm, (hne 't' rfl).symm, (hne 'f' rfl).symm,
      (hne 'N' rfl).symm, (hne 'I' rfl).symm, (hne '-' rfl).symm]
  rw [hd, List.cons_append, value?, skipBlank_cons (isBlankChar_of_digit hdigit)]
  simp [hword, hne '"' rfl, hne '[' rfl, hne '\x7b' rfl, hne '-' rfl]

theorem value?_minus (bound n : Nat) (rest : Text) :
    value? (bound + 1) ('-' :: (Text.ofNat n ++ rest)) = number? (-1) (Text.ofNat n ++ rest) := by
  obtain ⟨d, digits, hd, hdigit⟩ := exists_cons_ofNat n
  have hword : word? ('-' :: d :: (digits ++ rest)) = none := by
    simp [word?, Text.dropPrefix?, (ne_of_digit hdigit 'I' rfl).symm]
  rw [hd, List.cons_append, value?, skipBlank_cons (by decide)]
  simp [hword]

theorem value?_int (bound : Nat) (n : Int) {rest : Text} (h : Stops rest) :
    value? (bound + 1) (Text.ofInt n ++ rest) = some (.int n, rest) := by
  cases n with
  | ofNat n =>
    rw [Text.ofInt, value?_ofNat, number?_int 1 n h, Int.one_mul]
    rfl
  | negSucc n =>
    rw [Text.ofInt, List.cons_append, value?_minus, number?_int (-1) (n + 1) h, Int.negSucc_eq]
    simp

theorem value?_decimal (bound : Nat) (m e : Int) {rest : Text} (h : Stops rest) :
    value? (bound + 1) (decimalText m e ++ rest) = some (.decimal m e, rest) := by
  have htext : decimalText m e ++ rest = Text.ofInt m ++ 'e' :: (Text.ofInt e ++ rest) := by
    simp [decimalText]
  rw [htext]
  cases m with
  | ofNat n =>
    rw [Text.ofInt, value?_ofNat, number?_decimal 1 n e h.noDigit, Int.one_mul]
    rfl
  | negSucc n =>
    rw [Text.ofInt, List.cons_append, value?_minus, number?_decimal (-1) (n + 1) e h.noDigit,
      Int.negSucc_eq]
    simp

/-! ## Arrays and objects -/

/-- The text of a value at a level is read as the value, if the bound covers the text. -/
def ReadsBack (level : Nat) (value : Json) : Prop :=
  ∀ bound rest, (render level value).length ≤ bound → Stops rest →
    value? bound (render level value ++ rest) = some (value, rest)

theorem stops_newline (level : Nat) (rest : Text) : Stops (newline level ++ rest) := by
  intro c hc
  rw [← Option.some.inj hc]
  decide

theorem stops_comma (rest : Text) : Stops (',' :: rest) := by
  intro c hc
  rw [← Option.some.inj hc]
  decide

/-- What a value opens with can be told from a blank and from the end of an array. -/
theorem render_opens (level : Nat) (value : Json) :
    ∃ c t, render level value = c :: t ∧ isBlankChar c = false ∧ c ≠ ']' ∧ c.toNat < 128 := by
  have hint : ∀ n : Int, ∃ c t, Text.ofInt n = c :: t ∧ isBlankChar c = false ∧ c ≠ ']' ∧
      c.toNat < 128 := by
    rintro (n | n)
    · obtain ⟨d, digits, hd, hdigit⟩ := exists_cons_ofNat n
      refine ⟨d, digits, hd, isBlankChar_of_digit hdigit, ne_of_digit hdigit ']' rfl, ?_⟩
      simp only [isAsciiDigit, Bool.and_eq_true, decide_eq_true_eq] at hdigit
      omega
    · exact ⟨'-', _, rfl, by decide⟩
  cases value with
  | null => exact ⟨'n', _, rfl, by decide⟩
  | bool b => cases b <;> exact ⟨_, _, rfl, by decide⟩
  | int n => exact hint n
  | decimal m e =>
    obtain ⟨c, t, hc, hspec⟩ := hint m
    exact ⟨c, _, by rw [render, decimalText, hc]; rfl, hspec⟩
  | nonFinite => exact ⟨'N', _, rfl, by decide⟩
  | str t => exact ⟨'"', _, rfl, by decide⟩
  | arr items => cases items <;> exact ⟨'[', _, rfl, by decide⟩
  | obj members =>
    cases members with
    | nil => exact ⟨'\x7b', _, rfl, by decide⟩
    | cons member members => exact ⟨'\x7b', _, rfl, by decide⟩

theorem items?_render {level : Nat} (below : Nat) (rest : Text) (items : List Json) :
    ∀ (item : Json) (bound : Nat), (∀ value ∈ item :: items, ReadsBack level value) →
      (render level item ++ renderItems level items).length < bound →
      items? bound (render level item ++ (renderItems level items ++ (newline below ++ ']' :: rest))) =
        some (item :: items, rest) := by
  induction items with
  | nil =>
    intro item bound hread hbound
    obtain ⟨bound, rfl⟩ := Nat.exists_eq_add_one_of_ne_zero (Nat.ne_zero_of_lt hbound)
    have hitem := hread item List.mem_cons_self bound (newline below ++ ']' :: rest)
      (by simp [renderItems] at hbound; omega) (stops_newline below _)
    rw [renderItems, List.nil_append, items?, hitem]
    simp [skipBlank_newline, skipBlank_cons (c := ']') rfl]
  | cons next items ih =>
    intro item bound hread hbound
    obtain ⟨bound, rfl⟩ := Nat.exists_eq_add_one_of_ne_zero (Nat.ne_zero_of_lt hbound)
    simp only [renderItems, List.length_append, List.length_cons] at hbound
    have hitem := hread item List.mem_cons_self bound
      (renderItems level (next :: items) ++ (newline below ++ ']' :: rest)) (by omega)
      (by rw [renderItems]; exact stops_comma _)
    have hmore := ih next bound (fun value hvalue => hread value (List.mem_cons_of_mem item hvalue))
      (by simp only [List.length_append]; omega)
    rw [items?, hitem]
    simp [renderItems, skipBlank_cons (c := ',') rfl, items?_newline, hmore]

theorem value?_blank (bound : Nat) (t : Text) : value? bound (' ' :: t) = value? bound t := by
  cases bound with
  | zero => rfl
  | succ bound => rfl

section Member

variable {bound : Nat} {name : Text} {value : Json} {t rest after : Text}
  (h : value? bound t = some (value, rest))

include h

/-- The last member. -/
theorem members?_quote_last (hlast : skipBlank rest = '\x7d' :: after) :
    members? (bound + 1) (quote name ++ (": " ++ t)) = some ([(name, value)], after) := by
  rw [members?, quote]
  simp [skipBlank_cons, isBlankChar, stringFrom_quote, value?_blank, h, hlast]

/-- A member with others behind it. -/
theorem members?_quote_next (hnext : skipBlank rest = ',' :: after) :
    members? (bound + 1) (quote name ++ (": " ++ t)) =
      (members? bound after).map fun found => ((name, value) :: found.1, found.2) := by
  rw [members?, quote]
  simp [skipBlank_cons, isBlankChar, stringFrom_quote, value?_blank, h, hnext]

end Member

theorem members?_render {level : Nat} (below : Nat) (rest : Text) (members : List (Text × Json)) :
    ∀ (name : Text) (value : Json) (bound : Nat),
      (∀ member ∈ (name, value) :: members, ReadsBack level member.2) →
      (render level value ++ renderMembers level members).length < bound →
      members? bound (quote name ++ (": " ++ (render level value ++
          (renderMembers level members ++ (newline below ++ '\x7d' :: rest))))) =
        some ((name, value) :: members, rest) := by
  induction members with
  | nil =>
    intro name value bound hread hbound
    obtain ⟨bound, rfl⟩ := Nat.exists_eq_add_one_of_ne_zero (Nat.ne_zero_of_lt hbound)
    have hfirst : ReadsBack level value := hread (name, value) List.mem_cons_self
    have hvalue := hfirst bound (newline below ++ '\x7d' :: rest)
      (by simp [renderMembers] at hbound; omega) (stops_newline below _)
    have hlast : skipBlank (newline below ++ '\x7d' :: rest) = '\x7d' :: rest := by
      rw [skipBlank_newline, skipBlank_cons (by decide)]
    rw [renderMembers, List.nil_append, members?_quote_last hvalue hlast]
  | cons next members ih =>
    intro name value bound hread hbound
    obtain ⟨bound, rfl⟩ := Nat.exists_eq_add_one_of_ne_zero (Nat.ne_zero_of_lt hbound)
    simp only [renderMembers, List.length_append, List.length_cons] at hbound
    have hfirst : ReadsBack level value := hread (name, value) List.mem_cons_self
    have hvalue := hfirst bound
      (renderMembers level (next :: members) ++ (newline below ++ '\x7d' :: rest)) (by omega)
      (by rw [renderMembers]; exact stops_comma _)
    have hmore := ih next.1 next.2 bound
      (fun member hmember => hread member (List.mem_cons_of_mem _ hmember))
      (by simp only [List.length_append]; omega)
    have hnext : skipBlank (renderMembers level (next :: members) ++ (newline below ++ '\x7d' :: rest)) =
        ',' :: (newline level ++ (quote next.1 ++ (": " ++ (render level next.2 ++
          (renderMembers level members ++ (newline below ++ '\x7d' :: rest)))))) := by
      simp only [renderMembers, List.cons_append, List.append_assoc, skipBlank_cons (c := ',') rfl]
    rw [members?_quote_next hvalue hnext, members?_newline, hmore]
    rfl

/-! ## Every value -/

theorem length_render_pos (level : Nat) (value : Json) : 0 < (render level value).length := by
  obtain ⟨c, t, h, -⟩ := render_opens level value
  simp [h]

/-- The bound is used up by one, so it suffices to look at what it was before. -/
theorem readsBack_of_succ {level : Nat} {value : Json}
    (h : ∀ bound rest, (render level value).length ≤ bound + 1 → Stops rest →
      value? (bound + 1) (render level value ++ rest) = some (value, rest)) : ReadsBack level value := by
  intro bound rest hbound hrest
  have hpos := length_render_pos level value
  obtain ⟨bound, rfl⟩ := Nat.exists_eq_add_one_of_ne_zero (n := bound) (by omega)
  exact h bound rest hbound hrest

theorem readsBack_arr {level : Nat} {items : List Json}
    (ih : ∀ item ∈ items, ReadsBack (level + 1) item) : ReadsBack level (.arr items) := by
  refine readsBack_of_succ fun bound rest hbound _ => ?_
  cases items with
  | nil => rfl
  | cons item items =>
    simp only [render, List.length_append, List.length_cons] at hbound
    have hitems := items?_render level rest items item bound ih
      (by simp only [List.length_append]; omega)
    obtain ⟨c, t, hopen, hblank, hclose, -⟩ := render_opens (level + 1) item
    simp only [render, List.cons_append, List.append_assoc, List.nil_append, value?,
      skipBlank_cons (c := '[') rfl, skipBlank_newline, items?_newline, hitems]
    simp [hopen, skipBlank_cons hblank, hclose]

theorem readsBack_obj {level : Nat} {members : List (Text × Json)}
    (ih : ∀ member ∈ members, ReadsBack (level + 1) member.2) : ReadsBack level (.obj members) := by
  refine readsBack_of_succ fun bound rest hbound _ => ?_
  cases members with
  | nil => rfl
  | cons member members =>
    simp only [render, List.length_append, List.length_cons] at hbound
    have hmembers := members?_render level rest members member.1 member.2 bound ih
      (by simp only [List.length_append]; omega)
    simp only [render, List.cons_append, List.append_assoc, List.nil_append, value?,
      skipBlank_cons (c := '\x7b') rfl, skipBlank_newline, members?_newline, hmembers]
    simp [quote, skipBlank_cons, isBlankChar]

/-- Every value is read back from its text. -/
theorem readsBack (value : Json) : ∀ level, ReadsBack level value := by
  induction value using nested_induction with
  | null => exact fun level => readsBack_of_succ fun bound rest _ _ => rfl
  | bool b => cases b <;> exact fun level => readsBack_of_succ fun bound rest _ _ => rfl
  | int n => exact fun level => readsBack_of_succ fun bound rest _ hrest => value?_int bound n hrest
  | decimal m e =>
    exact fun level => readsBack_of_succ fun bound rest _ hrest => value?_decimal bound m e hrest
  | nonFinite => exact fun level => readsBack_of_succ fun bound rest _ _ => rfl
  | str t =>
    intro level
    refine readsBack_of_succ fun bound rest _ _ => ?_
    have hstring := stringFrom_quote t rest
    simp [render, quote, value?, skipBlank_cons, isBlankChar, hstring]
  | arr items ih => exact fun level => readsBack_arr fun item hitem => ih item hitem (level + 1)
  | obj members ih =>
    exact fun level => readsBack_obj fun member hmember => ih member hmember (level + 1)

/-- The whole text of a value stands for it. -/
theorem ofText?_toText (value : Json) : ofText? value.toText = some value := by
  obtain ⟨c, t, hopen, -, -, hascii⟩ := render_opens 0 value
  have hmark : c ≠ '\ufeff' := by
    rintro rfl
    exact absurd hascii (by decide)
  have hread := readsBack value 0 ((render 0 value).length + 1) [] (Nat.le_succ _)
    (fun c hc => by cases hc)
  rw [List.append_nil, hopen, List.length_cons] at hread
  simp [ofText?, toText, hopen, hmark, hread, skipBlank]

/-! ## Only ASCII -/

/-- A fixed text is checked by running through it. -/
theorem isAscii_of_all {t : Text} (h : t.all (·.toNat < 128) = true) : t.IsAscii :=
  fun c hc => of_decide_eq_true (List.all_eq_true.mp h c hc)

theorem isAscii_ofInt (n : Int) : Text.IsAscii (Text.ofInt n) := by
  have hnat : ∀ n, Text.IsAscii (Text.ofNat n) := by
    intro n c hc
    have hdigit := isAsciiDigit_of_mem_ofNat hc
    simp only [isAsciiDigit, Bool.and_eq_true, decide_eq_true_eq] at hdigit
    omega
  cases n with
  | ofNat n => exact hnat n
  | negSucc n => exact List.forall_mem_cons.mpr ⟨by decide, hnat (n + 1)⟩

theorem isAscii_escapeUnit (n : Nat) : Text.IsAscii (escapeUnit n) := by
  have hdigit : ∀ d < 16, (hexDigit d).toNat < 128 := by decide
  have hmod : ∀ m, (hexDigit (m % 16)).toNat < 128 := fun m => hdigit _ (Nat.mod_lt _ (by decide))
  intro c hc
  simp only [escapeUnit, List.mem_cons, List.not_mem_nil, or_false] at hc
  rcases hc with rfl | rfl | rfl | rfl | rfl | rfl
  · decide
  · decide
  all_goals exact hmod _

theorem isAscii_escapeChar (c : Char) : Text.IsAscii (escapeChar c) := by
  obtain ⟨e, hc, -, he⟩ | ⟨hc, -, -, -, hhigh⟩ | ⟨hc, -⟩ | ⟨hc, -⟩ := escapeChar_cases c
  · rw [hc]
    exact List.forall_mem_cons.mpr ⟨by decide, List.forall_mem_singleton.mpr he⟩
  · rw [hc]
    exact List.forall_mem_singleton.mpr (by omega)
  · rw [hc]
    exact isAscii_escapeUnit _
  · rw [hc]
    exact List.forall_mem_append.mpr ⟨isAscii_escapeUnit _, isAscii_escapeUnit _⟩

theorem isAscii_quote (t : Text) : Text.IsAscii (quote t) := by
  intro c hc
  simp only [quote, List.cons_append, List.mem_cons, List.mem_append, List.mem_flatMap,
    List.not_mem_nil, or_false] at hc
  obtain rfl | ⟨d, -, hd⟩ | rfl := hc
  · decide
  · exact isAscii_escapeChar d c hd
  · decide

theorem isAscii_newline (level : Nat) : Text.IsAscii (newline level) := by
  intro c hc
  rcases List.mem_cons.mp hc with rfl | hc
  · decide
  · rw [List.eq_of_mem_replicate hc]
    decide

theorem isAscii_renderItems {level : Nat} {items : List Json}
    (h : ∀ item ∈ items, Text.IsAscii (render level item)) : Text.IsAscii (renderItems level items) := by
  induction items with
  | nil => exact fun c hc => by cases hc
  | cons item items ih =>
    obtain ⟨hitem, hitems⟩ := List.forall_mem_cons.mp h
    simp only [Text.IsAscii, renderItems, List.cons_append, List.forall_mem_cons,
      List.forall_mem_append]
    exact ⟨by decide, ⟨isAscii_newline level, hitem⟩, ih hitems⟩

theorem isAscii_renderMembers {level : Nat} {members : List (Text × Json)}
    (h : ∀ member ∈ members, Text.IsAscii (render level member.2)) :
    Text.IsAscii (renderMembers level members) := by
  induction members with
  | nil => exact fun c hc => by cases hc
  | cons member members ih =>
    obtain ⟨hmember, hmembers⟩ := List.forall_mem_cons.mp h
    simp only [Text.IsAscii, renderMembers, List.cons_append, List.forall_mem_cons,
      List.forall_mem_append]
    exact ⟨by decide, ⟨⟨⟨isAscii_newline level, isAscii_quote member.1⟩, isAscii_of_all rfl⟩, hmember⟩,
      ih hmembers⟩

theorem isAscii_render (value : Json) : ∀ level, Text.IsAscii (render level value) := by
  induction value using nested_induction with
  | null => exact fun level => isAscii_of_all rfl
  | bool b =>
    cases b with
    | false => exact fun level => isAscii_of_all rfl
    | true => exact fun level => isAscii_of_all rfl
  | int n => exact fun level => isAscii_ofInt n
  | decimal m e =>
    intro level
    simp only [Text.IsAscii, render, decimalText, List.forall_mem_append]
    exact ⟨⟨isAscii_ofInt m, isAscii_of_all rfl⟩, isAscii_ofInt e⟩
  | nonFinite => exact fun level => isAscii_of_all rfl
  | str t => exact fun level => isAscii_quote t
  | arr items ih =>
    intro level
    cases items with
    | nil => exact isAscii_of_all rfl
    | cons item items =>
      have hitems : Text.IsAscii (renderItems (level + 1) items) := isAscii_renderItems
        fun next hnext => ih next (List.mem_cons_of_mem item hnext) (level + 1)
      simp only [Text.IsAscii, render, List.cons_append, List.forall_mem_cons,
        List.forall_mem_append]
      exact ⟨by decide, ⟨⟨⟨isAscii_newline _, ih item List.mem_cons_self (level + 1)⟩, hitems⟩,
        isAscii_newline level⟩, by decide, List.forall_mem_nil _⟩
  | obj members ih =>
    intro level
    cases members with
    | nil => exact isAscii_of_all rfl
    | cons member members =>
      have hmembers : Text.IsAscii (renderMembers (level + 1) members) := isAscii_renderMembers
        fun next hnext => ih next (List.mem_cons_of_mem member hnext) (level + 1)
      simp only [Text.IsAscii, render, List.cons_append, List.forall_mem_cons,
        List.forall_mem_append]
      exact ⟨by decide, ⟨⟨⟨⟨⟨isAscii_newline _, isAscii_quote member.1⟩, isAscii_of_all rfl⟩,
        ih member List.mem_cons_self (level + 1)⟩, hmembers⟩, isAscii_newline level⟩, by decide,
        List.forall_mem_nil _⟩

end Json

end ComponentAudit
