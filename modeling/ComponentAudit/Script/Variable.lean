import ComponentAudit.Component.Usage
import ComponentAudit.Script.Binding
import ComponentAudit.Script.Pattern
import ComponentAudit.Text.Token

/-!
Variables of a script: component props, plain declarations, and reactive assignments with the
variables that they depend on. The first variable of a name counts, and bindings of functions are
left to the functions.
-/

namespace ComponentAudit

inductive VariableKind where
  | letBinding
  | constBinding
  | varBinding
  | prop
  | reactive
  deriving DecidableEq

def VariableKind.label : VariableKind → Text
  | .letBinding => "let"
  | .constBinding => "const"
  | .varBinding => "var"
  | .prop => "prop"
  | .reactive => "reactive"

structure Variable where
  name : Text
  kind : VariableKind
  position : Position
  offset : Nat
  nameOffset : Nat
  dependencies : List Text
  usages : List Usage := []

/-- A variable as found in a script, offsets counted from the script's start: that of the statement
and that of the name. -/
structure FoundVariable where
  name : Text
  kind : VariableKind
  statement : Nat
  nameOffset : Nat

namespace Variable

/-- A prop exported under its own name. -/
def exportedProp? (c : Cursor) : Option (FoundVariable × Cursor) := do
  if !c.startsFresh then none
  else
    let rest ← c.wordAndSpaces? "export"
    let (_, place) ← rest.oneOf? [("let", ()), ("var", ())]
    let (name, stop) ← place.identifier?
    some (⟨name, .prop, c.offset, place.offset⟩, stop)

/-- A keyword in front of an object pattern: the offset of the keyword and the place of the brace. -/
def patternStart? (c : Cursor) : Option ((Nat × Cursor) × Cursor) := do
  if !c.startsFresh then none
  else
    let keyword ← (c.expect? "let").or (c.expect? "const")
    let brace := keyword.skipSpaces
    let stop ← brace.expect? "\x7b"
    some ((c.offset, brace), stop)

/-- The props taken out of `$props` by an object pattern. -/
def patternProps (script : Text) : List FoundVariable :=
  (Cursor.collect patternStart? script).flatMap fun (statement, brace) =>
    match Bracket.closing? '{' '}' brace.after with
    | none => []
    | some size =>
      match Statement.assignment? (brace.advance (size + 1)) with
      | none => []
      | some assignment =>
        if (assignment.advance 1).skipSpaces.startsWith "$props" then
          (Binding.ofPattern (brace.offset + 1) ((brace.after.drop 1).take (size - 1))).map
            fun binding => ⟨binding.name, .prop, statement, binding.offset⟩
        else []

def declarationKeywords : List (Text × VariableKind) :=
  [("let", .letBinding), ("const", .constBinding), ("var", .varBinding)]

/-- A keyword in front of a name or pattern: its place, its kind, and the place behind it. -/
def declaration? (c : Cursor) : Option ((Cursor × VariableKind × Cursor) × Cursor) := do
  if !c.startsFresh then none
  else
    let (kind, stop) ← c.oneOf? declarationKeywords
    if stop.peek?.any fun ch => isIdentHead ch || ch == '{' || ch == '[' then
      some ((c, kind, stop), stop)
    else none

/-- The variables of plain declarations. Exported ones are props, unless they are constants. -/
def declared (script : Text) : List FoundVariable :=
  (Cursor.collect declaration? script).flatMap fun (place, kind, rest) =>
    if place.precededBy "export" && kind != .constBinding then []
    else (Binding.ofDeclarators rest).map fun binding =>
      ⟨binding.name, kind, place.offset, binding.offset⟩

/-- A reactive assignment at the start of a line. -/
def reactive? (c : Cursor) : Option (FoundVariable × Cursor) := do
  if c.prev?.any (· != '\n') then none
  else
    let label ← (c.skipWhile fun ch => ch == ' ' || ch == '\t').expect? "$:"
    let place := label.skipSpaces
    let (name, rest) ← place.identifier?
    let stop ← rest.skipSpaces.expect? "="
    if stop.peek?.any fun ch => ch == '=' || ch == '>' then none
    else some (⟨name, .reactive, c.offset, place.offset⟩, stop)

/-- The variables of a masked script that are not bound to functions. -/
def findAll (script : Text) (functionOffsets : List Nat) : List FoundVariable :=
  keepFirst FoundVariable.name <|
    (Cursor.collect exportedProp? script ++ patternProps script ++ declared script ++
      Cursor.collect reactive? script).filter fun found =>
        !functionOffsets.contains found.nameOffset

/-- The right-hand side of the assignment whose name stands at an offset. -/
def rightHandSide (script : Text) (nameOffset : Nat) : Text :=
  let start := ((Cursor.seek script nameOffset).skipWhile (· != '=')).advance 1
  start.after.take (start.after.length - (Statement.stop start).after.length)

/-- The names among `names` that a right-hand side mentions, in order of their first mention. -/
def mentionedNames (names : List Text) (own rightSide : Text) : List Text :=
  let mentioned := names.filterMap fun name =>
    if name == own then none
    else (Text.tokens rightSide name).head?.map fun first => (name, first)
  (mentioned.mergeSort fun a b => a.2 ≤ b.2).map (·.1)

end Variable

end ComponentAudit
