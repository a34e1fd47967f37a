import ComponentAudit.Text.Basic

/-!
Bracket matching that skips string literals. A quote ends a literal unless a backslash stands right
before it.
-/

namespace ComponentAudit

def isQuote (c : Char) : Bool := c == '\'' || c == '"' || c == '`'

namespace Bracket

/-- Searches on from inside a bracket, given the nesting depth, the open quote and the character
just passed. -/
def closingFrom (opener closer : Char) :
    (depth : Int) → (quote : Option Char) → (prev : Char) → (offset : Nat) → Text → Option Nat
  | _, _, _, _, [] => none
  | depth, some q, prev, offset, c :: rest =>
    closingFrom opener closer depth (if c == q && prev != '\\' then none else some q) c
      (offset + 1) rest
  | depth, none, _, offset, c :: rest =>
    if isQuote c then closingFrom opener closer depth (some c) c (offset + 1) rest
    else if c == opener then closingFrom opener closer (depth + 1) none c (offset + 1) rest
    else if c == closer then
      if depth - 1 == 0 then some offset
      else closingFrom opener closer (depth - 1) none c (offset + 1) rest
    else closingFrom opener closer depth none c (offset + 1) rest

/-- The offset of the bracket that closes the first character of the text. A quote as first
character opens no literal. -/
def closing? (opener closer : Char) : Text → Option Nat
  | [] => none
  | c :: rest =>
    let depth := if c == opener then 1 else if c == closer then -1 else 0
    closingFrom opener closer depth none c 1 rest

end Bracket

end ComponentAudit
