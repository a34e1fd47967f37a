import ComponentAudit.Script.TypeContext

/-! # The innermost open brace

Whether a place is inside a type literal is decided by a search backwards, which counts the closing
braces that still want a partner. Forwards, a text leaves a stack of open braces, and a closing brace
takes the last of them away, if there is one. A search with `depth` closing braces on its count finds
what would be on top of the stack if `depth` more were taken away (`insideLiteralFrom_take`). A closing
brace without partner makes no difference to either: it leaves the empty stack as it is, and the search
that counts it has no open brace left to find. -/

namespace ComponentAudit.TypeContext

/-- The stack of open braces behind one more character, which stands at `offset`. -/
def stackStep (openers : List Nat) (offset : Nat) (c : Char) : List Nat :=
  if c == '{' then offset :: openers else if c == '}' then openers.tail else openers

/-- The stack of open braces behind a text that starts at `offset`, given the one in front of it. -/
def openBracesFrom (openers : List Nat) (offset : Nat) : Text → List Nat
  | [] => openers
  | c :: rest => openBracesFrom (stackStep openers offset c) (offset + 1) rest

/-- The offsets of the braces that a text leaves open, the last one first. -/
def openBraces (t : Text) : List Nat := openBracesFrom [] 0 t

section

variable {c : Char} (hopen : c ≠ '{') (hclose : c ≠ '}')

include hopen hclose

theorem stackStep_other (openers : List Nat) (offset : Nat) : stackStep openers offset c = openers := by
  rw [stackStep, beq_eq_false_iff_ne.mpr hopen, beq_eq_false_iff_ne.mpr hclose]
  rfl

theorem insideLiteralFrom_other (depth : Nat) (before : Text) :
    insideLiteralFrom depth (c :: before) = insideLiteralFrom depth before := by
  rw [insideLiteralFrom.eq_def]
  dsimp only
  rw [beq_eq_false_iff_ne.mpr hopen, beq_eq_false_iff_ne.mpr hclose]
  rfl

end

theorem openBracesFrom_concat (openers : List Nat) (offset : Nat) (t : Text) (c : Char) :
    openBracesFrom openers offset (t ++ [c]) =
      stackStep (openBracesFrom openers offset t) (offset + t.length) c := by
  induction t generalizing openers offset with
  | nil => rfl
  | cons d t ih =>
    rw [List.cons_append, openBracesFrom, ih, openBracesFrom, List.length_cons, Nat.add_right_comm,
      Nat.add_assoc]

theorem openBraces_concat (t : Text) (c : Char) :
    openBraces (t ++ [c]) = stackStep (openBraces t) t.length c := by
  rw [openBraces, openBracesFrom_concat, Nat.zero_add]
  rfl

/-- The search backwards finds the brace below `depth` others on the stack: by induction on the offset
where it starts, since the last character changes the count and the stack alike. -/
theorem insideLiteralFrom_take (t : Text) (depth offset : Nat) :
    insideLiteralFrom depth (t.take offset).reverse =
      (openBraces (t.take offset))[depth]?.any fun opener => opensTypeLiteral (t.take opener).reverse := by
  induction offset generalizing depth with
  | zero => rfl
  | succ offset ih =>
    rw [List.take_add_one]
    cases hc : t[offset]? with
    | none => rw [Option.toList_none, List.append_nil, ih]
    | some c =>
      have hlength : (t.take offset).length = offset :=
        List.length_take_of_le (Nat.le_of_lt (List.getElem?_eq_some_iff.mp hc).1)
      rw [Option.toList_some, List.reverse_concat, openBraces_concat, hlength]
      by_cases hopen : c = '{'
      · subst hopen
        cases depth with
        | zero => rfl
        | succ depth => exact ih depth
      · by_cases hclose : c = '}'
        · subst hclose
          show insideLiteralFrom (depth + 1) (t.take offset).reverse =
            (openBraces (t.take offset)).tail[depth]?.any _
          rw [ih, List.getElem?_tail]
        · rw [insideLiteralFrom_other hopen hclose, stackStep_other hopen hclose, ih]

/-- A place is inside a type literal if and only if the text in front of it leaves a brace open and the
last one opens a type literal. -/
theorem insideTypeLiteral_eq_top (t : Text) (offset : Nat) :
    insideTypeLiteral (Cursor.seek t offset) =
      match openBraces (t.take offset) with
      | [] => false
      | top :: _ => opensTypeLiteral (Cursor.seek t top).before := by
  have hsearch := insideLiteralFrom_take t 0 offset
  rw [← List.head?_eq_getElem?] at hsearch
  rw [insideTypeLiteral, Cursor.seek, hsearch]
  cases openBraces (t.take offset) with
  | nil => rfl
  | cons top openers => rfl

end ComponentAudit.TypeContext
