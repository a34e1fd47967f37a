import ComponentAudit.Text.Bracket
import ComponentAudit.Text.Cursor

/-!
Pieces of script statements, found without a grammar: where a statement ends, the sign that assigns a
binding, arrow functions and function bodies.
-/

namespace ComponentAudit.Statement

/-- Characters after which a line goes on. -/
def isContinuation (c : Char) : Bool := ("=+-*/?:&|(," : Text).contains c

/-- The last character of `before` that is not white space. -/
def lastInk? (before : Text) : Option Char := (before.dropWhile isSpace).head?

/-- Looks for the end of a statement, given the nesting depth and the open quote. -/
def endFrom (quote : Option Char) (depth : Nat) (before : Text) : Text → Cursor
  | [] => ⟨before, []⟩
  | c :: rest =>
    match quote with
    | some q =>
      if c == '\\' then
        match rest with
        | [] => ⟨c :: before, []⟩
        | d :: rest => endFrom quote depth (d :: c :: before) rest
      else endFrom (if c == q then none else some q) depth (c :: before) rest
    | none =>
      if isQuote c then endFrom (some c) depth (c :: before) rest
      else if c == '(' || c == '[' || c == '{' then endFrom none (depth + 1) (c :: before) rest
      else if c == ')' || c == ']' || c == '}' then
        match depth with
        | 0 => ⟨before, c :: rest⟩
        | depth + 1 => endFrom none depth (c :: before) rest
      else if depth == 0 && (c == ';' || c == ',') then ⟨before, c :: rest⟩
      else if depth == 0 && c == '\n' && !(lastInk? before).any isContinuation then
        ⟨before, c :: rest⟩
      else endFrom none depth (c :: before) rest

/-- The end of the statement or declarator at a place: a `;` or `,` outside brackets, a bracket that
closes more than was opened, or a line feed that does not follow an operator. -/
def stop (c : Cursor) : Cursor := endFrom none 0 c.before c.after

theorem length_after_endFrom (quote : Option Char) (depth : Nat) (before after : Text) :
    (endFrom quote depth before after).after.length ≤ after.length := by
  fun_induction endFrom quote depth before after <;> grind

/-- Looks for the `=` of a binding past a type annotation, given the depth of brackets. -/
def assignmentFrom (depth : Nat) (before : Text) : Text → Option Cursor
  | [] => none
  | c :: rest =>
    if c == '(' || c == '[' || c == '{' || c == '<' then assignmentFrom (depth + 1) (c :: before) rest
    else if c == '>' && before.head? == some '=' then assignmentFrom depth (c :: before) rest
    else if c == ')' || c == ']' || c == '}' || c == '>' then
      match depth with
      | 0 => none
      | depth + 1 => assignmentFrom depth (c :: before) rest
    else if c == ';' then none
    else if c == '\n' && depth == 0 &&
        !(lastInk? before).any fun ch => ch == ':' || ch == '|' || ch == '&' then none
    else if c == '=' && depth == 0 then
      match rest with
      | [] => some ⟨before, c :: rest⟩
      | d :: after =>
        if d == '=' || d == '>' then assignmentFrom depth (d :: c :: before) after
        else some ⟨before, c :: rest⟩
    else assignmentFrom depth (c :: before) rest

def assignment? (c : Cursor) : Option Cursor := assignmentFrom 0 c.before c.after

/-- The place behind the bracket that closes the one at a place. -/
def pastClosing? (opener closer : Char) (c : Cursor) : Option Cursor :=
  (Bracket.closing? opener closer c.after).map fun size => c.advance (size + 1)

/-- The place behind `=>` and whether the function is asynchronous, if an arrow function starts at
a place. A return type may stand between the parameters and the arrow, on one line. -/
def arrow? (c : Cursor) : Option (Cursor × Bool) := do
  let c := c.skipSpaces
  let following := (c.advance 5).skipSpaces
  let isAsync := c.wordAt "async" && following.peek?.any fun ch => ch == '(' || isIdentChar ch
  let c := if isAsync then following else c
  let first ← c.peek?
  let afterParameters ←
    if first == '(' then do
      let close ← pastClosing? '(' ')' c
      let after := close.skipSpaces
      if after.startsWith ":" then
        (Text.indexOf? after.restOfLine "=>").map after.advance
      else some after
    else if isIdentChar first && !isDigit first then some c.skipIdent.skipSpaces
    else none
  let body ← afterParameters.expect? "=>"
  some (body, isAsync)

/-- Whether a function body opens at a place, a return type in front of it allowed. -/
def opensBody (c : Cursor) : Bool :=
  let c := c.skipSpaces
  c.startsWith "\x7b" ||
    (c.startsWith ":" &&
      let line := c.restOfLine
      let between := line.takeWhile (· != '{')
      line.contains '{' && !between.contains ';' && !between.contains '=')

end ComponentAudit.Statement
