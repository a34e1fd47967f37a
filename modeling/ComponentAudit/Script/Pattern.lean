import ComponentAudit.Component.Attribute
import ComponentAudit.Text.Bracket

/-!
Small recognisers that the searches for declarations and imports are put together from.
-/

namespace ComponentAudit.Cursor

/-- Whether the place does not continue an identifier or a member access. -/
def startsFresh (c : Cursor) : Bool := !c.prev?.any fun ch => isIdentChar ch || ch == '.'

/-- The place behind at least one character of white space. -/
def spaces? (c : Cursor) : Option Cursor :=
  if c.peek?.any isSpace then some c.skipSpaces else none

/-- The place behind a word and the white space after it. -/
def wordAndSpaces? (word : Text) (c : Cursor) : Option Cursor := (c.expect? word).bind spaces?

/-- Passes over a word with the white space after it, if it is there. -/
def optionalWord (word : Text) (c : Cursor) : Bool × Cursor :=
  match c.wordAndSpaces? word with
  | some next => (true, next)
  | none => (false, c)

def identifier? (c : Cursor) : Option (Text × Cursor) := c.name? isIdentHead isIdentChar

/-- The first of some words that follows with white space after it. -/
def oneOf? {α : Type} (words : List (Text × α)) (c : Cursor) : Option (α × Cursor) :=
  words.findSome? fun (word, value) => (c.wordAndSpaces? word).map fun next => (value, next)

/-- A text in quotes that holds none of the quotes in use. -/
def literal? (isDelimiter : Char → Bool) (c : Cursor) : Option (Text × Cursor) := do
  let quote ← c.peek?
  if !isDelimiter quote then none
  else
    let inside := c.advance 1
    let stop := inside.skipWhile (!isDelimiter ·)
    if stop.peek? == some quote then
      some (inside.after.takeWhile (!isDelimiter ·), stop.advance 1)
    else none

end ComponentAudit.Cursor

namespace ComponentAudit

/-- Keeps the first item of each name, given the names seen before. -/
def keepFirstFrom {α : Type} (name : α → Text) (seen : List Text) : List α → List α
  | [] => []
  | a :: rest =>
    if seen.contains (name a) then keepFirstFrom name seen rest
    else a :: keepFirstFrom name (name a :: seen) rest

def keepFirst {α : Type} (name : α → Text) (items : List α) : List α := keepFirstFrom name [] items

end ComponentAudit
