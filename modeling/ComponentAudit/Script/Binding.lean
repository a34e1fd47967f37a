import ComponentAudit.Script.Statement

/-!
The names that a declaration binds: plain names, and the names in destructuring patterns, where keys
and the identifiers of default values bind nothing.
-/

namespace ComponentAudit

structure Binding where
  name : Text
  offset : Nat

namespace Binding

def isOpener (c : Char) : Bool := c == '{' || c == '[' || c == '('

def isCloser (c : Char) : Bool := c == '}' || c == ']' || c == ')'

/-- Whether a colon follows, white space apart. -/
def isKey (after : Text) : Bool := (Text.trimLeft after).head? == some ':'

/-- The depth of the default value being read, after a character at a depth. A default ends at a
comma of its own depth or further out, and where its bracket closes. -/
def defaultAfter (default? : Option Int) (depth : Int) (c : Char) (next : Option Char) : Option Int :=
  if isCloser c then default?.filter (· ≤ depth)
  else if c == ',' then default?.filter (· < depth)
  else if c == '=' && next != some '>' then default?.or (some depth)
  else default?

def depthAfter (depth : Int) (c : Char) : Int :=
  if isOpener c then depth + 1 else if isCloser c then depth - 1 else depth

/-- The names bound by the rest of a pattern at `offset`; `covered` counts the characters of an
identifier or string that have been dealt with. -/
def patternFrom (covered : Nat) (depth : Int) (default? : Option Int) (offset : Nat) :
    Text → List Binding
  | [] => []
  | c :: rest =>
    match covered with
    | covered + 1 => patternFrom covered depth default? (offset + 1) rest
    | 0 =>
      if isQuote c then
        let size := if rest.contains c then (rest.takeWhile (· != c)).length + 1 else rest.length
        patternFrom size depth default? (offset + 1) rest
      else if isIdentChar c && !isDigit c then
        let tail := rest.takeWhile isIdentChar
        let found :=
          if default?.isNone && !isKey (rest.drop tail.length) then [⟨c :: tail, offset⟩] else []
        found ++ patternFrom tail.length depth default? (offset + 1) rest
      else
        let depth := depthAfter depth c
        patternFrom 0 depth (defaultAfter default? depth c rest.head?) (offset + 1) rest

/-- The names bound by the inside of a pattern that starts at `offset`. -/
def ofPattern (offset : Nat) (inside : Text) : List Binding := patternFrom 0 0 none offset inside

/-- The names bound by one declarator, and the place behind them. -/
def declarator? (c : Cursor) : Option (List Binding × Cursor) :=
  let c := c.skipSpaces
  match c.after with
  | [] => none
  | first :: rest =>
    if first == '{' || first == '[' then
      let closer := if first == '{' then '}' else ']'
      match Bracket.closing? first closer c.after with
      | none => none
      | some size => some (ofPattern (c.offset + 1) (rest.take (size - 1)), c.advance (size + 1))
    else if isIdentChar first && !isDigit first then
      some ([⟨c.after.takeWhile isIdentChar, c.offset⟩], c.skipIdent)
    else none

theorem length_after_declarator? {c stop : Cursor} {found : List Binding}
    (h : declarator? c = some (found, stop)) : stop.after.length < c.after.length := by
  have hskip := Cursor.length_after_skipWhile isSpace c
  unfold declarator? at h
  simp only [Cursor.skipSpaces] at h
  split at h
  · exact absurd h (by simp)
  · rename_i first rest hafter
    have hlen := congrArg List.length hafter
    simp only [List.length_cons] at hlen
    split at h
    · split at h
      · exact absurd h (by simp)
      · rename_i size _
        simp only [Option.some.injEq, Prod.mk.injEq] at h
        have hadv := Cursor.length_after_advance (c.skipWhile isSpace) (size + 1)
        rw [← h.2]
        omega
    · split at h
      · rename_i hident
        simp only [Option.some.injEq, Prod.mk.injEq] at h
        simp only [Bool.and_eq_true] at hident
        rw [← h.2]
        simp only [Cursor.skipIdent, Cursor.skipWhile] at hafter hskip hlen ⊢
        rw [hafter, List.dropWhile_cons_of_pos hident.1]
        have := Text.length_dropWhile_le isIdentChar rest
        omega
      · exact absurd h (by simp)

/-- The names bound by the declarators from a place on, as in `a = 1, {b}, [c]`. -/
def ofDeclarators (c : Cursor) : List Binding :=
  match _h : declarator? c with
  | none => []
  | some (found, stop) =>
    match _hend : (Statement.stop stop).after with
    | ',' :: _ => found ++ ofDeclarators ((Statement.stop stop).advance 1)
    | _ => found
termination_by c.after.length
decreasing_by
  have h1 := length_after_declarator? _h
  have h2 := Statement.length_after_endFrom none 0 stop.before stop.after
  have h3 := Cursor.length_after_advance (Statement.stop stop) 1
  simp only [Statement.stop] at h3 ⊢
  omega

end Binding

end ComponentAudit
