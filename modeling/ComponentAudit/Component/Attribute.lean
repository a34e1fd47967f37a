import ComponentAudit.Text.Cursor

/-!
Attributes of an opening tag. A value is quoted or runs to the next blank, quote or `>`; an attribute
without a value has the empty one; the first of two attributes of one name counts.
-/

namespace ComponentAudit

/-- Attributes in order of first appearance, at most one of each name. -/
abbrev Attributes := List (Text × Text)

namespace Attributes

def get? (attributes : Attributes) (name : Text) : Option Text := attributes.lookup name

def has (attributes : Attributes) (name : Text) : Bool := (attributes.get? name).isSome

/-- Adds an attribute unless its name is taken. -/
def insert (attributes : Attributes) (name value : Text) : Attributes :=
  if attributes.has name then attributes else attributes ++ [(name, value)]

end Attributes

/-- Characters of an attribute name after the first. -/
def isAttributeNameChar (c : Char) : Bool := isWordChar c || c == ':' || c == '.' || c == '-'

/-- A name that opens with `head` and goes on with `tail` characters. -/
def Cursor.name? (head tail : Char → Bool) (c : Cursor) : Option (Text × Cursor) :=
  match c.after with
  | [] => none
  | first :: rest =>
    if head first then some (first :: rest.takeWhile tail, (c.advance 1).skipWhile tail) else none

/-- The text up to the closing quote, for a place right behind the opening one. -/
def Cursor.quoted? (quote : Char) (c : Cursor) : Option (Text × Cursor) :=
  let stop := c.skipWhile (· != quote)
  if stop.after.isEmpty then none else some (c.after.takeWhile (· != quote), stop.advance 1)

namespace Attributes

/-- An unquoted value: at least one character, none of them blank, a quote or `>`. -/
def bareValue? (c : Cursor) : Option (Text × Cursor) :=
  let inValue := fun ch => !(isSpace ch || ch == '"' || ch == '\'' || ch == '>')
  let value := c.after.takeWhile inValue
  if value.isEmpty then none else some (value, c.skipWhile inValue)

def value? (c : Cursor) : Option (Text × Cursor) := do
  let c := (← c.skipSpaces.expect? "=").skipSpaces
  match c.peek? with
  | some '"' => (c.advance 1).quoted? '"'
  | some '\'' => (c.advance 1).quoted? '\''
  | _ => bareValue? c

/-- One attribute, with an empty value if none is given. -/
def attribute? (c : Cursor) : Option ((Text × Text) × Cursor) := do
  let (name, c) ← c.name? (fun ch => isAsciiLetter ch || ch == '_' || ch == ':') isAttributeNameChar
  match value? c with
  | some (value, c) => some ((name, value), c)
  | none => some ((name, []), c)

/-- The attributes of an opening tag such as `<style lang="scss">`. -/
def ofTag (tag tagName : Text) : Attributes :=
  let body := tag.drop (tagName.length + 1)
  let body := if body.getLast? == some '>' then body.dropLast else body
  (Cursor.collect attribute? body).foldl (fun found (name, value) => found.insert name value) []

end Attributes

end ComponentAudit
