import ComponentAudit.Component.Document
import ComponentAudit.Script.Import
import ComponentAudit.Script.Pattern

/-!
Uses of components in markup: tags whose name opens with a capital, and the targets of dynamic
components.
-/

namespace ComponentAudit

structure ComponentUsage where
  componentName : Text
  position : Position
  context : Text

namespace ComponentUsage

/-- The opening of a component's tag: its offset, its name and what follows. -/
def tag? (c : Cursor) : Option ((Nat × Text × Text) × Cursor) := do
  let (name, stop) ← (← c.expect? "<").name? isAsciiCapital fun ch =>
    isAsciiLetter ch || isAsciiDigit ch || ch == '_'
  some ((c.offset, name, stop.after), stop)

/-- The target of a dynamic component, as in a `this` attribute: its offset and name. -/
def target? (c : Cursor) : Option ((Nat × Text) × Cursor) := do
  if c.prev?.any isWordChar then none
  else
    let c ← (← c.expect? "this").skipSpaces.expect? "="
    let place := (← c.skipSpaces.expect? "\x7b").skipSpaces
    let (name, rest) ← place.name? isAsciiCapital isIdentChar
    let stop ← rest.skipSpaces.expect? "\x7d"
    some ((place.offset, name), stop)

/-- The components named in a markup, by offset. A tag counts only if a `>` follows it. -/
def offsets (markup : Text) : List (Nat × Text) :=
  let tags := (Cursor.collect tag? markup).filterMap fun (offset, name, rest) =>
    if rest.contains '>' then some (offset, name) else none
  (tags ++ Cursor.collect target? markup).mergeSort fun a b =>
    a.1 < b.1 || (a.1 == b.1 && Text.le a.2 b.2)

def findAll (document : Document) : List ComponentUsage :=
  (offsets document.markup.text).map fun (offset, name) =>
    let usage := document.usageAt (document.markup.sourceIndex offset)
    ⟨name, usage.position, usage.context⟩

end ComponentUsage

/-- A component import with the uses of its name. -/
def ComponentImport.link (usages : List ComponentUsage) (component : ComponentImport) :
    ComponentImport :=
  { component with
    usages := (usages.filter (·.componentName == component.componentName)).map fun usage =>
      { position := usage.position, context := usage.context
        elementName := some usage.componentName } }

end ComponentAudit
