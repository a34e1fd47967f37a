import ComponentAudit.Proofs.Script.Name
import ComponentAudit.Proofs.Text.Reading
import ComponentAudit.Proofs.Text.Split

/-! # Lists of declarators

A declarator is a name with a type and a value, both of them optional: `n: T = e`. A list of declarators
is cut apart at the commas outside brackets, and there the brackets `()`, `[]` and `{}` count but
`<>` do not. So the names of a list are read as they were written wherever the commas of its types stand
inside brackets of the first three kinds (`Guarded`). A comma that only `<>` enclose starts a name. -/

namespace ComponentAudit

/-! ## Texts with brackets -/

namespace Text

/-- Brackets of one kind are balanced: no start of the text closes more of them than it opens, and the
text closes all that it opens. -/
structure Balanced (pair : Char × Char) (t : Text) : Prop where
  covered : ∀ n ≤ t.length, (t.take n).count pair.2 ≤ (t.take n).count pair.1
  closed : t.count pair.2 = t.count pair.1

instance (pair : Char × Char) (t : Text) : Decidable (Balanced pair t) :=
  decidable_of_iff (_ ∧ _) ⟨fun h => ⟨h.1, h.2⟩, fun h => ⟨h.covered, h.closed⟩⟩

/-- Every `c` in a text stands behind a bracket that is still open. -/
def Encloses (pairs : List (Char × Char)) (c : Char) (t : Text) : Prop :=
  ∀ n < t.length, t[n]? = some c →
    ∃ pair ∈ pairs, (t.take n).count pair.2 < (t.take n).count pair.1

instance (pairs : List (Char × Char)) (c : Char) (t : Text) : Decidable (Encloses pairs c t) :=
  decidable_of_iff (∀ n < t.length, t[n]? = some c →
    (pairs.any fun pair => decide ((t.take n).count pair.2 < (t.take n).count pair.1)) = true) <| by
      simp [Encloses]

theorem Balanced.count_le {pair : Char × Char} {front back : Text} (h : Balanced pair (front ++ back)) :
    front.count pair.2 ≤ front.count pair.1 := by
  have hfront := h.covered front.length (by simp)
  rwa [List.take_left] at hfront

theorem Encloses.count_lt {pairs : List (Char × Char)} {c : Char} {front back : Text}
    (h : Encloses pairs c (front ++ c :: back)) :
    ∃ pair ∈ pairs, front.count pair.2 < front.count pair.1 := by
  have hfront := h front.length (by simp) (by simp)
  rwa [List.take_left] at hfront

/-- A piece of a declarator: on one line, without quotes, statement ends and arrows, and with no comma
outside its brackets, which are balanced. -/
structure IsPiece (pairs : List (Char × Char)) (t : Text) : Prop where
  ne_nil : t ≠ []
  plain : ∀ c ∈ t, isQuote c = false ∧ c ≠ ';' ∧ c ≠ '\n'
  arrowless : mentions t "=>" = false
  balanced : ∀ pair ∈ pairs, Balanced pair t
  commas : Encloses pairs ',' t

theorem isPiece_iff {pairs : List (Char × Char)} {t : Text} :
    IsPiece pairs t ↔ t ≠ [] ∧ (t.all fun c => !isQuote c && c != ';' && c != '\n') = true ∧
      mentions t "=>" = false ∧ (pairs.all fun pair => decide (Balanced pair t)) = true ∧
      Encloses pairs ',' t := by
  have hplain : (t.all fun c => !isQuote c && c != ';' && c != '\n') = true ↔
      ∀ c ∈ t, isQuote c = false ∧ c ≠ ';' ∧ c ≠ '\n' := by
    simp [List.all_eq_true, and_assoc]
  have hbalanced : (pairs.all fun pair => decide (Balanced pair t)) = true ↔
      ∀ pair ∈ pairs, Balanced pair t := by
    simp only [List.all_eq_true, decide_eq_true_eq]
  rw [hplain, hbalanced]
  constructor
  · intro h
    exact ⟨h.ne_nil, h.plain, h.arrowless, h.balanced, h.commas⟩
  · rintro ⟨hne, hplain, harrowless, hbalanced, hcommas⟩
    exact ⟨hne, hplain, harrowless, hbalanced, hcommas⟩

instance (pairs : List (Char × Char)) (t : Text) : Decidable (IsPiece pairs t) :=
  decidable_of_iff _ isPiece_iff.symm

end Text

/-- The brackets of values. -/
def roundPairs : List (Char × Char) := [('(', ')'), ('[', ']'), ('{', '}')]

/-- The brackets of types. -/
def typePairs : List (Char × Char) := ('<', '>') :: roundPairs

/-! ## Declarators -/

/-- A name that can be bound. -/
def IsBindable (name : Text) : Prop := IsName name ∧ name.head?.any isDigit = false

instance (name : Text) : Decidable (IsName name) :=
  decidable_of_iff (name ≠ [] ∧ name.all isIdentChar = true) (by simp [IsName])

instance (name : Text) : Decidable (IsBindable name) := inferInstanceAs (Decidable (_ ∧ _))

/-- The text of a type: an `=` stands inside its brackets too. -/
def IsTypeText (t : Text) : Prop := t.IsPiece typePairs ∧ t.Encloses typePairs '='

instance (t : Text) : Decidable (IsTypeText t) := inferInstanceAs (Decidable (_ ∧ _))

/-- A name with its type and its value. -/
structure Declarator where
  name : Text
  type? : Option Text := none
  value? : Option Text := none
  isBindable : IsBindable name
  isTypeText : ∀ t ∈ type?, IsTypeText t
  isPiece : ∀ t ∈ value?, Text.IsPiece roundPairs t

namespace Declarator

/-- What stands behind the name. -/
def tail (d : Declarator) : Text :=
  (d.type?.elim [] fun t => ':' :: ' ' :: t) ++ d.value?.elim [] fun t => ' ' :: '=' :: ' ' :: t

/-- The declarator as it is written. -/
def text (d : Declarator) : Text := d.name ++ d.tail

/-- A list of declarators as it is written. -/
def listing (ds : List Declarator) : Text := Text.join ", " (ds.map text)

/-- The bindings of a list that is written at an offset. -/
def bindings (offset : Nat) : List Declarator → List Binding
  | [] => []
  | d :: ds => ⟨d.name, offset⟩ :: bindings (offset + d.text.length + 2) ds

/-- The commas of the type stand inside other brackets than `<>`. -/
def Guarded (d : Declarator) : Prop := ∀ t ∈ d.type?, t.Encloses roundPairs ','

instance (d : Declarator) : Decidable d.Guarded :=
  inferInstanceAs (Decidable (∀ t ∈ d.type?, _))

end Declarator

/-! ## The end of a declarator -/

namespace Statement

/-- How many brackets are open behind a text. -/
def openRounds (t : Text) : Nat :=
  (t.count '(' - t.count ')') + (t.count '[' - t.count ']') + (t.count '{' - t.count '}')

/-- The search for the end of a declarator passes over a text. -/
def Skips (t : Text) : Prop :=
  ∀ before rest, endFrom none 0 before (t ++ rest) = endFrom none 0 (t.reverse ++ before) rest

theorem Skips.append {s t : Text} (hs : Skips s) (ht : Skips t) : Skips (s ++ t) := by
  intro before rest
  rw [List.append_assoc, hs, ht, List.reverse_append, List.append_assoc]

theorem openRounds_of_balanced {t : Text} (h : ∀ pair ∈ roundPairs, Text.Balanced pair t) :
    openRounds t = 0 := by
  have hround := (h ('(', ')') (by decide)).closed
  have hsquare := (h ('[', ']') (by decide)).closed
  have hcurly := (h ('{', '}') (by decide)).closed
  simp only [openRounds] at hround hsquare hcurly ⊢
  omega

theorem openRounds_pos {front : Text}
    (h : ∃ pair ∈ roundPairs, front.count pair.2 < front.count pair.1) : 0 < openRounds front := by
  obtain ⟨pair, hpair, hlt⟩ := h
  unfold openRounds
  simp only [roundPairs, List.mem_cons, List.not_mem_nil, or_false] at hpair
  rcases hpair with rfl | rfl | rfl <;> simp only at hlt <;> omega

section Step

variable {front before rest : Text} {c : Char}

theorem openRounds_opener (hc : c = '(' ∨ c = '[' ∨ c = '{')
    (hfront : ∀ pair ∈ roundPairs, front.count pair.2 ≤ front.count pair.1) :
    openRounds (front ++ [c]) = openRounds front + 1 := by
  have hround := hfront ('(', ')') (by decide)
  have hsquare := hfront ('[', ']') (by decide)
  have hcurly := hfront ('{', '}') (by decide)
  simp only at hround hsquare hcurly
  unfold openRounds
  rcases hc with rfl | rfl | rfl <;> simp <;> omega

theorem openRounds_closer (hc : c = ')' ∨ c = ']' ∨ c = '}')
    (hnext : ∀ pair ∈ roundPairs, (front ++ [c]).count pair.2 ≤ (front ++ [c]).count pair.1) :
    openRounds front = openRounds (front ++ [c]) + 1 := by
  have hround := hnext ('(', ')') (by decide)
  have hsquare := hnext ('[', ']') (by decide)
  have hcurly := hnext ('{', '}') (by decide)
  unfold openRounds
  rcases hc with rfl | rfl | rfl <;> simp at hround hsquare hcurly ⊢ <;> omega

theorem openRounds_other (hopen : ¬ (c = '(' ∨ c = '[' ∨ c = '{'))
    (hclose : ¬ (c = ')' ∨ c = ']' ∨ c = '}')) : openRounds (front ++ [c]) = openRounds front := by
  simp only [not_or] at hopen hclose
  simp [openRounds, List.count_append, hopen, hclose]

/-- Brackets change the depth, and at a depth no comma ends a declarator. -/
theorem endFrom_cons (hplain : isQuote c = false ∧ c ≠ ';' ∧ c ≠ '\n')
    (hcomma : c = ',' → 0 < openRounds front)
    (hfront : ∀ pair ∈ roundPairs, front.count pair.2 ≤ front.count pair.1)
    (hnext : ∀ pair ∈ roundPairs, (front ++ [c]).count pair.2 ≤ (front ++ [c]).count pair.1) :
    endFrom none (openRounds front) before (c :: rest) =
      endFrom none (openRounds (front ++ [c])) (c :: before) rest := by
  obtain ⟨hquote, hend, hline⟩ := hplain
  by_cases hopen : c = '(' ∨ c = '[' ∨ c = '{'
  · have hopener : (c == '(' || c == '[' || c == '{') = true := by
      rcases hopen with rfl | rfl | rfl <;> decide
    simp only [endFrom, hquote, hopener, openRounds_opener hopen hfront, Bool.false_eq_true, if_false,
      if_true]
  · have hopener : (c == '(' || c == '[' || c == '{') = false := by simpa [and_assoc] using hopen
    by_cases hclose : c = ')' ∨ c = ']' ∨ c = '}'
    · have hcloser : (c == ')' || c == ']' || c == '}') = true := by
        rcases hclose with rfl | rfl | rfl <;> decide
      simp only [endFrom, hquote, hopener, hcloser, openRounds_closer hclose hnext, Bool.false_eq_true,
        if_false, if_true]
    · have hcloser : (c == ')' || c == ']' || c == '}') = false := by simpa [and_assoc] using hclose
      have hcut : (openRounds front == 0 && (c == ';' || c == ',')) = false := by
        by_cases hc : c = ','
        · simp [Nat.ne_of_gt (hcomma hc)]
        · simp [hend, hc]
      have hfeed : (c == '\n') = false := by simpa using hline
      simp only [endFrom, hquote, hopener, hcloser, hcut, hfeed, openRounds_other hopen hclose,
        Bool.false_eq_true, if_false, Bool.and_false, Bool.false_and]

end Step

theorem endFrom_append {front back before rest : Text}
    (hplain : ∀ c ∈ back, isQuote c = false ∧ c ≠ ';' ∧ c ≠ '\n')
    (hbalanced : ∀ pair ∈ roundPairs, Text.Balanced pair (front ++ back))
    (hcommas : Text.Encloses roundPairs ',' (front ++ back)) :
    endFrom none (openRounds front) before (back ++ rest) =
      endFrom none 0 (back.reverse ++ before) rest := by
  -- the text that is left, with the depth behind what was read of it
  induction back generalizing front before with
  | nil =>
    rw [List.append_nil] at hbalanced
    rw [openRounds_of_balanced hbalanced]
    rfl
  | cons c back ih =>
    obtain ⟨hc, hback⟩ := List.forall_mem_cons.mp hplain
    have hsplit : front ++ c :: back = (front ++ [c]) ++ back := by simp
    have hstep := @endFrom_cons front before (back ++ rest) c hc
      (fun hcomma => openRounds_pos (hcomma ▸ hcommas).count_lt)
      (fun pair hpair => (hbalanced pair hpair).count_le)
      (fun pair hpair => (hsplit ▸ hbalanced pair hpair).count_le)
    rw [List.cons_append, hstep, ih hback (hsplit ▸ hbalanced) (hsplit ▸ hcommas)]
    simp

theorem skips_of_balanced {t : Text} (hplain : ∀ c ∈ t, isQuote c = false ∧ c ≠ ';' ∧ c ≠ '\n')
    (hbalanced : ∀ pair ∈ roundPairs, Text.Balanced pair t)
    (hcommas : Text.Encloses roundPairs ',' t) : Skips t := by
  intro before rest
  exact @endFrom_append [] t before rest hplain hbalanced hcommas

end Statement

namespace Declarator

variable {d : Declarator} {before rest : Text}

theorem skips_tail (h : d.Guarded) : Statement.Skips d.tail := by
  have htype : Statement.Skips (d.type?.elim [] fun t => ':' :: ' ' :: t) := by
    cases htype : d.type? with
    | none => exact fun _ _ => rfl
    | some t =>
      have hpiece := (d.isTypeText t htype).1
      have hcolon : Statement.Skips [':', ' '] := fun _ _ => rfl
      refine hcolon.append (Statement.skips_of_balanced hpiece.plain ?_ (h t htype))
      exact fun pair hpair => hpiece.balanced pair (List.mem_cons_of_mem _ hpair)
  have hvalue : Statement.Skips (d.value?.elim [] fun t => ' ' :: '=' :: ' ' :: t) := by
    cases hvalue : d.value? with
    | none => exact fun _ _ => rfl
    | some t =>
      have hpiece := d.isPiece t hvalue
      have hequals : Statement.Skips [' ', '=', ' '] := fun _ _ => rfl
      exact hequals.append (Statement.skips_of_balanced hpiece.plain hpiece.balanced hpiece.commas)
  exact htype.append hvalue

/-- A declarator ends at the comma or the semicolon behind it. -/
theorem stop_tail (h : d.Guarded) {c : Char} (hc : c = ',' ∨ c = ';') :
    Statement.stop ⟨before, d.tail ++ c :: rest⟩ = ⟨d.tail.reverse ++ before, c :: rest⟩ := by
  rw [Statement.stop, skips_tail h]
  rcases hc with rfl | rfl <;> rfl

/-- The name goes no further than to its type, its value or the end of the declarator. -/
theorem isIdentChar_head?_tail (d : Declarator) {c x : Char} (hc : c = ',' ∨ c = ';')
    (hx : (d.tail ++ c :: rest).head? = some x) : isIdentChar x = false := by
  have hx : x = ':' ∨ x = ' ' ∨ x = c := by
    unfold tail at hx
    cases htype : d.type? with
    | some t =>
      rw [htype] at hx
      exact .inl (Option.some.inj hx).symm
    | none =>
      rw [htype] at hx
      cases hvalue : d.value? with
      | some t =>
        rw [hvalue] at hx
        exact .inr (.inl (Option.some.inj hx).symm)
      | none =>
        rw [hvalue] at hx
        exact .inr (.inr (Option.some.inj hx).symm)
  rcases hc with rfl | rfl <;> rcases hx with rfl | rfl | rfl <;> decide +kernel

/-- White space in front of a name is passed over. -/
theorem declarator?_name {spaces name : Text} (hspaces : Blank spaces) (hname : IsBindable name)
    (hrest : ∀ x, rest.head? = some x → isIdentChar x = false) :
    Binding.declarator? ⟨before, spaces ++ (name ++ rest)⟩ =
      some ([⟨name, before.length + spaces.length⟩],
        ⟨name.reverse ++ (spaces.reverse ++ before), rest⟩) := by
  obtain ⟨⟨hne, hident⟩, hhead⟩ := hname
  obtain ⟨first, more, rfl⟩ := List.exists_cons_of_ne_nil hne
  have hfirst : isIdentChar first = true := hident first List.mem_cons_self
  have hspace : isSpace first = false := by
    cases hspace : isSpace first with
    | false => rfl
    | true => cases (isIdentChar_of_isSpace hspace).symm.trans hfirst
  have hbrace : (first == '{' || first == '[') = false := by
    by_cases h : first = '{' ∨ first = '['
    · rcases h with rfl | rfl <;> exact absurd hfirst (by decide +kernel)
    · simpa using h
  have hplace := Cursor.reads_append before spaces (first :: more ++ rest)
  have hname := Cursor.reads_append (spaces.reverse ++ before) (first :: more) rest
  have hskip := Cursor.skipSpaces_of_reads hplace hspaces hname hspace
  have hstop := Cursor.skipWhile_of_reads hname hident hrest
  have hdigit : isDigit first = false := hhead
  have hrun : (first :: more ++ rest).takeWhile isIdentChar = first :: more :=
    takeWhile_append_of_stop hident hrest
  unfold Binding.declarator?
  rw [hskip]
  rw [List.cons_append] at hrun hstop ⊢
  simp only [Cursor.skipIdent, hbrace, hfirst, hdigit, hrun, hstop, Bool.false_eq_true, if_false,
    Bool.not_false, Bool.and_self, if_true, Cursor.offset, List.length_append, List.length_reverse,
    Nat.add_comm]

/-- Behind a name, its type and its value, a comma leads on to the next name. -/
theorem ofDeclarators_text (h : d.Guarded) {spaces : Text} (hspaces : Blank spaces) {c : Char}
    (hc : c = ',' ∨ c = ';') :
    Binding.ofDeclarators ⟨before, spaces ++ (d.text ++ c :: rest)⟩ =
      ⟨d.name, before.length + spaces.length⟩ ::
        if c = ',' then
          Binding.ofDeclarators ⟨',' :: (d.text.reverse ++ (spaces.reverse ++ before)), rest⟩
        else [] := by
  have hread := @declarator?_name before (d.tail ++ c :: rest) _ _ hspaces d.isBindable
    fun x => d.isIdentChar_head?_tail hc
  have hstop := @stop_tail _ (d.name.reverse ++ (spaces.reverse ++ before)) rest h _ hc
  rw [text, List.append_assoc, Binding.ofDeclarators]
  split
  · rename_i hnone
    cases hread.symm.trans hnone
  · rename_i found place hfound
    obtain ⟨rfl, rfl⟩ := Prod.mk.inj (Option.some.inj (hread.symm.trans hfound))
    -- a semicolon ends the list
    split
    · rename_i hcomma
      rw [hstop] at hcomma
      obtain ⟨rfl, -⟩ := List.cons.inj hcomma
      rw [hstop]
      simp [Cursor.advance]
    · rename_i hcomma
      rw [hstop] at hcomma
      have hother : c ≠ ',' := fun he => hcomma rest (he ▸ rfl)
      rw [if_neg hother]

theorem ofDeclarators_listing {ds : List Declarator} (hne : ds ≠ []) (h : ∀ d ∈ ds, d.Guarded)
    {before spaces : Text} (hspaces : Blank spaces) (back : Text) :
    Binding.ofDeclarators ⟨before, spaces ++ (listing ds ++ ';' :: back)⟩ =
      bindings (before.length + spaces.length) ds := by
  induction ds generalizing before spaces with
  | nil => exact absurd rfl hne
  | cons d ds ih =>
    obtain ⟨hd, hds⟩ := List.forall_mem_cons.mp h
    cases ds with
    | nil =>
      rw [listing, List.map_cons, List.map_nil, Text.join_singleton, ofDeclarators_text hd hspaces
        (.inr rfl), if_neg (by decide)]
      rfl
    | cons e ds =>
      have hblank : Blank [' '] := by simp [Blank, isSpace]
      have hlist : listing (d :: e :: ds) ++ ';' :: back =
          d.text ++ ',' :: ([' '] ++ (listing (e :: ds) ++ ';' :: back)) := by
        simp [listing, Text.join_cons_cons]
      rw [hlist, ofDeclarators_text hd hspaces (.inl rfl), if_pos rfl, ih (by simp) hds hblank]
      simp only [bindings, List.length_cons, List.length_append, List.length_reverse, List.length_nil]
      congr 3 <;> omega

/-- A declaration in a script binds the names that it lists, at their offsets, wherever behind the
keyword the reading starts. -/
theorem ofDeclarators_let (front back : Text) {ds : List Declarator} (hne : ds ≠ [])
    (h : ∀ d ∈ ds, d.Guarded) {start : Nat}
    (hstart : start = front.length + 3 ∨ start = front.length + 4) :
    Binding.ofDeclarators (Cursor.seek (front ++ "let " ++ listing ds ++ ";" ++ back) start) =
      bindings (front.length + 4) ds := by
  have hscript : front ++ "let " ++ listing ds ++ ";" ++ back =
      front ++ ['l', 'e', 't'] ++ ([' '] ++ (listing ds ++ ';' :: back)) := by simp
  rcases hstart with rfl | rfl
  · have hseek : Cursor.seek (front ++ "let " ++ listing ds ++ ";" ++ back) (front.length + 3) =
        ⟨(front ++ ['l', 'e', 't']).reverse, [' '] ++ (listing ds ++ ';' :: back)⟩ := by
      rw [hscript, Cursor.seek, List.take_left' (by simp), List.drop_left' (by simp)]
    rw [hseek, ofDeclarators_listing hne h (by simp [Blank, isSpace])]
    simp
  · have hseek : Cursor.seek (front ++ "let " ++ listing ds ++ ";" ++ back) (front.length + 4) =
        ⟨(front ++ ['l', 'e', 't'] ++ [' ']).reverse, [] ++ (listing ds ++ ';' :: back)⟩ := by
      rw [hscript, ← List.append_assoc, Cursor.seek, List.take_left' (by simp),
        List.drop_left' (by simp), List.nil_append]
    rw [hseek, ofDeclarators_listing hne h (by simp [Blank])]
    simp

/-- Generic types, nested literals and a name on its own. -/
def sample : List Declarator := [
  { name := "table"
    type? := some "Map<[string, number]>"
    value? := some "make(\x7b a: 1, b: [2, 3] \x7d)"
    isBindable := by decide +kernel
    isTypeText := by decide +kernel
    isPiece := by decide +kernel },
  { name := "size"
    isBindable := by decide +kernel
    isTypeText := by decide
    isPiece := by decide },
  { name := "pair"
    type? := some "[Set<A>, B]"
    isBindable := by decide +kernel
    isTypeText := by decide +kernel
    isPiece := by decide }]

theorem ofDeclarators_let_sample :
    (∀ d ∈ sample, d.Guarded) ∧
      Binding.ofDeclarators (Cursor.seek ("// names\n" ++ "let " ++ listing sample ++ ";" ++ "") 12) =
        bindings 13 sample :=
  have hguarded : ∀ d ∈ sample, d.Guarded := by decide +kernel
  ⟨hguarded, ofDeclarators_let "// names\n" "" (by decide) hguarded (.inl rfl)⟩

/-- A map from names to numbers. -/
def generic : Declarator where
  name := "a"
  type? := some "Map<string, number>"
  value? := some "x"
  isBindable := by decide +kernel
  isTypeText := by decide +kernel
  isPiece := by decide +kernel

/-- A comma that only `<>` enclose ends the declarator, and what stands behind it is bound. -/
theorem ofDeclarators_let_generic :
    let found := Binding.ofDeclarators (Cursor.seek ("let " ++ listing [generic] ++ ";") 4)
    found.map Binding.name = [("a" : Text), "number"] ∧ found ≠ bindings 4 [generic] := by
  intro found
  have hnames : found.map Binding.name = [("a" : Text), "number"] := by decide +kernel
  refine ⟨hnames, fun h => ?_⟩
  rw [h] at hnames
  cases hnames

end Declarator

end ComponentAudit
