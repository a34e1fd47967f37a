import ComponentAudit.Component.Usage
import ComponentAudit.Script.Pattern
import ComponentAudit.Script.Statement
import ComponentAudit.Script.TypeContext

/-!
Functions of a script: declarations, bindings of a function value, members of object literals, and
names with a parameter list and a body. The first function of a name counts.
-/

namespace ComponentAudit

/-- The form in which a function is written. -/
inductive FunctionKind where
  | function
  | arrow
  | method
  deriving DecidableEq

def FunctionKind.label : FunctionKind → Text
  | .function => "function"
  | .arrow => "arrow"
  | .method => "method"

structure Function where
  name : Text
  kind : FunctionKind
  position : Position
  offset : Nat
  isExported : Bool
  isAsync : Bool
  usages : List Usage := []

/-- A function as found in a script, its offset counted from the script's start. -/
structure FoundFunction where
  name : Text
  kind : FunctionKind
  offset : Nat
  isExported : Bool := false
  isAsync : Bool := false

namespace Function

/-- A function declaration up to its parameters. -/
def declaration? (c : Cursor) : Option (FoundFunction × Cursor) := do
  if !c.startsFresh then none
  else
    let (isExported, c) := c.optionalWord "export"
    let (isAsync, c) := c.optionalWord "async"
    let c ← c.expect? "function"
    if c.peek?.any isWordChar then none
    else
      let c := c.skipSpaces
      let c := ((c.expect? "*").getD c).skipSpaces
      let (name, rest) ← c.identifier?
      let stop ← rest.skipSpaces.expect? "("
      some ({ name, kind := .function, offset := c.offset, isExported, isAsync }, stop)

def bindingKeywords : List (Text × Unit) := [("const", ()), ("let", ()), ("var", ())]

/-- A name bound by a keyword: whether it is exported, the name, its offset and the place behind. -/
def binding? (c : Cursor) : Option ((Bool × Text × Nat × Cursor) × Cursor) := do
  if !c.startsFresh then none
  else
    let (isExported, c) := c.optionalWord "export"
    let (_, c) ← c.oneOf? bindingKeywords
    let (name, rest) ← c.identifier?
    let stop := rest.skipSpaces
    some ((isExported, name, c.offset, stop), stop)

/-- The kind of function that a value is, and whether it is asynchronous. -/
def ofValue? (value : Cursor) : Option (FunctionKind × Bool) :=
  match Statement.arrow? value with
  | some (_, isAsync) => some (.arrow, isAsync)
  | none =>
    if value.wordAt "function" then some (.function, false)
    else if value.wordAt "async" && (value.advance 5).skipSpaces.wordAt "function" then
      some (.function, true)
    else none

def boundFunctions (script : Text) : List FoundFunction :=
  (Cursor.collect binding? script).filterMap fun (isExported, name, offset, rest) => do
    let assignment ← Statement.assignment? rest
    let (kind, isAsync) ← ofValue? (assignment.advance 1).skipSpaces
    some { name, kind, offset, isExported, isAsync }

/-- A name with a colon, and the places of the name and behind the colon. -/
def member? (c : Cursor) : Option ((Text × Cursor × Cursor) × Cursor) := do
  if !c.startsFresh || c.prev? == some '?' then none
  else
    let (name, rest) ← c.identifier?
    let stop ← rest.skipSpaces.expect? ":"
    if stop.peek? == some ':' then none else some ((name, c, stop), stop)

/-- The members of object literals whose value is an arrow function. Labels of a switch, and members
of types, are none. -/
def memberFunctions (script : Text) : List FoundFunction :=
  (Cursor.collect member? script).filterMap fun (name, place, rest) => do
    if Vocabulary.isControlKeyword name || name == "case" || name == "default" then none
    else
      let (body, isAsync) ← Statement.arrow? rest.skipSpaces
      if TypeContext.startsWithTypeKeyword (body.after.take 16) then none
      else if TypeContext.insideTypeLiteral place then none
      else some { name, kind := .method, offset := place.offset, isAsync }

/-- A name in front of a parenthesis, and the places of the two. -/
def call? (c : Cursor) : Option ((Text × Cursor × Cursor) × Cursor) := do
  if !c.startsFresh then none
  else
    let (name, rest) ← c.identifier?
    let paren := rest.skipSpaces
    let stop ← paren.expect? "("
    some ((name, c, paren), stop)

/-- The methods written as a name, parameters and a body. -/
def methods (script : Text) : List FoundFunction :=
  (Cursor.collect call? script).filterMap fun (name, place, paren) => do
    if Vocabulary.isControlKeyword name || name == "constructor" || place.precededBy "new" then none
    else
      let close ← Statement.pastClosing? '(' ')' paren
      if !Statement.opensBody close then none
      else if TypeContext.looksLikeAnnotation place name.length then none
      else some { name, kind := .method, offset := place.offset, isAsync := place.precededBy "async" }

def findAll (script : Text) : List FoundFunction :=
  keepFirst FoundFunction.name <|
    Cursor.collect declaration? script ++ boundFunctions script ++ memberFunctions script ++
      methods script

end Function

end ComponentAudit
