import ComponentAudit.Component.Document
import ComponentAudit.Script.Function
import ComponentAudit.Script.Import
import ComponentAudit.Script.Variable

/-!
Uses of what scripts declare. Every search is for text: a name counts as used where it stands as a
whole identifier in a place that suggests a use.
-/

namespace ComponentAudit

/-- The script whose body an offset lies in. -/
def owningScript? (scripts : List ScriptRegion) (offset : Nat) : Option ScriptRegion :=
  scripts.find? fun region => region.span.bodyStart ≤ offset && offset < region.span.bodyEnd

/-- Whether the last brace before a place opens one. -/
def inMarkupExpression (c : Cursor) : Bool :=
  c.before.find? (fun ch => ch == '{' || ch == '}') == some '{'

/-- Whether a directive that names a variable ends at a place. -/
def afterDirective (c : Cursor) : Bool :=
  [("bind:" : Text), "class:"].any fun directive => directive.reverse.isPrefixOf c.before

namespace Variable

/-- The names under which a variable is read: its own, and its own with the mark of a store. -/
def readNames (name : Text) : List Text := [name, '$' :: name]

/-- The offsets in the owning script at which a variable is read. -/
def scriptOffsets (document : Document) (scripts : List ScriptRegion) (found : Variable) :
    List Nat :=
  match owningScript? scripts found.nameOffset with
  | none => []
  | some region =>
    let tokens := fun name =>
      document.text.tokensIn name region.span.bodyStart region.span.bodyEnd
    (tokens found.name).filter (· != found.nameOffset) ++ tokens ('$' :: found.name)

/-- The offsets in the markup at which a variable is read: inside an expression, or behind a
directive. -/
def markupOffsets (document : Document) (found : Variable) : List Nat :=
  let markup := document.markup.text
  (readNames found.name).flatMap fun name =>
    ((Text.tokens markup name).filter fun offset =>
      let place := Cursor.seek markup offset
      inMarkupExpression place || afterDirective place).map document.markup.sourceIndex

def findUsages (found : Variable) (document : Document) (scripts : List ScriptRegion) :
    List Usage :=
  let inMarkup := if document.options.scanMarkup then markupOffsets document found else []
  (sortOffsets (scriptOffsets document scripts found ++ inMarkup)).map document.usageAt

end Variable

namespace Function

/-- What may stand right before and right behind the name of a function in use. -/
def probes : List (Text × Text) := [
  ("", "("), ("\x7b", "\x7d"), ("on:", ""), ("use:", ""), ("$: ", ""), ("[", "]"), (", ", ")"),
  ("(", ","), (" ", " ")]

/-- Calls that take a handler as an argument. -/
def listenerCalls : List Text := ["addEventListener(", "removeEventListener("]

/-- How far behind such a call the handler is looked for. -/
def listenerWindow : Nat := 100

def probeOffsets (t name : Text) (probe : Text × Text) : List Nat :=
  (t.occurrences (probe.1 ++ name ++ probe.2)).filter fun hit =>
    let start := hit + probe.1.length
    t.isWholeToken start (start + name.length)

/-- The offsets of listener calls that mention a name. -/
def listenerOffsets (t name : Text) (call : Text) : List Nat :=
  (t.occurrences call).filter fun hit =>
    !(Text.tokens ((t.drop (hit + call.length)).take listenerWindow) name).isEmpty

/-- The uses of a function outside the line that declares it. -/
def findUsages (found : Function) (document : Document) : List Usage :=
  let t := document.text
  let hits := probes.flatMap (probeOffsets t found.name) ++
    listenerCalls.flatMap (listenerOffsets t found.name)
  ((sortOffsets hits).filter fun offset =>
    (document.index.position offset).line != found.position.line).map document.usageAt

end Function

namespace Import

/-- The uses of the names that an import binds, outside the import itself. -/
def findUsages (found : Import) (document : Document) : List Usage :=
  let hits := found.symbols.flatMap fun symbol =>
    (Text.tokens document.text symbol).filter fun offset =>
      !(found.offset ≤ offset && offset < found.endOffset)
  (sortOffsets hits).map document.usageAt

end Import

end ComponentAudit
