import ComponentAudit.Component.Document
import ComponentAudit.Style.Catalog
import ComponentAudit.Text.Bracket
import ComponentAudit.Text.Token

/-!
Uses of selectors in markup. Classes are looked for in class attributes, in class directives and in
quoted names; where a class name may be put together at run time, the search leans towards a use.
-/

namespace ComponentAudit

/-- The name of the tag that opens last at or before an offset of a markup. -/
def enclosingElement (markup : Text) (offset : Nat) : Text :=
  let reach := ((markup.take (offset + 1)).reverse.dropWhile (· != '<')).length
  match reach with
  | 0 => "unknown"
  | start + 1 =>
    match (Cursor.seek markup (start + 1)).name? isAsciiLetter isAttributeNameChar with
    | some (name, _) => name
    | none => "unknown"

def Document.markupUsage (document : Document) (offset : Nat) (attributeName : Text)
    (elementName : Option Text) : Usage :=
  let found := document.usageAt (document.markup.sourceIndex offset)
  { found with
    elementName := some (elementName.getD (enclosingElement document.markup.text offset))
    attributeName := some attributeName }

/-- A class attribute: where it starts, its value, where that starts, and where the attribute ends. -/
structure ClassAttribute where
  offset : Nat
  value : Text
  valueOffset : Nat
  stop : Nat

namespace ClassAttribute

def startsAttribute (c : Cursor) : Bool :=
  !c.prev?.any fun ch => isWordChar ch || ch == ':' || ch == '-'

/-- An attribute's name and equals sign: its offset and the place of its value. -/
def assignment? (name : Text) (c : Cursor) : Option ((Nat × Cursor) × Cursor) := do
  if !startsAttribute c then none
  else
    let stop := (← (← c.expect? name).skipSpaces.expect? "=").skipSpaces
    some ((c.offset, stop), stop)

/-- The class attribute whose value stands at a place: in quotes, or in braces that are part of it. -/
def ofValue? (offset : Nat) (place : Cursor) : Option ClassAttribute :=
  match place.after with
  | [] => none
  | c :: rest =>
    if c == '"' || c == '\'' then
      if rest.contains c then
        let value := rest.takeWhile (· != c)
        some ⟨offset, value, place.offset + 1, place.offset + value.length + 2⟩
      else none
    else if c == '{' then
      (Bracket.closing? '{' '}' place.after).map fun size =>
        ⟨offset, place.after.take (size + 1), place.offset, place.offset + size + 1⟩
    else none

def findAll (markup : Text) : List ClassAttribute :=
  (Cursor.collect (assignment? "class") markup).filterMap fun (offset, place) => ofValue? offset place

def isDynamic (found : ClassAttribute) : Bool := found.value.contains '{'

/-- The offset of the first word of the value that equals a name. -/
def wordOffset? (found : ClassAttribute) (name : Text) : Option Nat :=
  (Cursor.collect (fun c =>
    let stop := c.skipWhile (!isSpace ·)
    if c.peek?.any isSpace then none
    else some ((c.offset, c.after.takeWhile (!isSpace ·)), stop)) found.value).findSome?
      fun (offset, word) => if word == name then some (found.valueOffset + offset) else none

/-- The offset at which the value names a class; a name with dots wants each of its parts. -/
def staticOffset? (found : ClassAttribute) (name : Text) : Option Nat :=
  let parts := Text.splitOn '.' name
  let words := Text.words found.value
  if parts.all words.contains then
    some ((found.wordOffset? (parts.headD [])).getD found.offset)
  else none

/-- Whether the value may put the class name together at run time. -/
def composes (found : ClassAttribute) (markup name : Text) : Bool :=
  let value := found.value
  let quotes : List Text := ["'", "\""]
  let branches : List Text := ["? ", ": "]
  let parts := Text.splitOn '.' name
  let base := parts.headD []
  let stem := Text.upTo name "-"
  (quotes.any fun q => branches.any fun branch => Text.mentions value (branch ++ q ++ name ++ q)) ||
    (name.contains '-' &&
      (Text.mentions value (stem ++ "-\x7b") || Text.mentions markup ("'" ++ stem ++ "-' + ") ||
        Text.mentions markup ("\"" ++ stem ++ "-\" + ") || Text.mentions value (stem ++ "-$\x7b") ||
        [("\x60" : Text), "\"", "'"].any fun q =>
          Text.mentions markup (q ++ stem ++ "-$\x7b"))) ||
    (name.contains '.' &&
      (Text.mentions value (base ++ ".\x7b") ||
        (parts.length == 2 && Text.mentions (Text.trim value) " \x7b" && Text.mentions value base)))

def classOffset? (found : ClassAttribute) (markup name : Text) : Option Nat :=
  (found.staticOffset? name).or
    (if found.isDynamic && found.composes markup name then some found.offset else none)

end ClassAttribute

namespace StyleSelector

/-- The class that a directive for a class name sets: for a name with dots, its second part. -/
def directiveClass (name : Text) : Text :=
  if name.contains '.' then (Text.splitOn '.' name).getD 1 [] else name

def directiveOffsets (markup name : Text) : List Nat :=
  let directive := "class:" ++ directiveClass name
  (markup.occurrences directive).filter fun hit =>
    let place := Cursor.seek markup hit
    !place.prev?.any isIdentChar &&
      !(place.after.drop directive.length).head?.any fun c => !(isTagNameEnd c || c == '=')

/-- The offsets of a quoted class name outside class attributes. -/
def quotedOffsets (attributes : List ClassAttribute) (markup name : Text) : List Nat :=
  [("'" : Text), "\""].flatMap fun q =>
    (markup.occurrences (q ++ name ++ q)).filter fun hit =>
      !attributes.any fun found => found.offset ≤ hit && hit < found.stop

def classUsages (document : Document) (attributes : List ClassAttribute) (name : Text) :
    List Usage :=
  let markup := document.markup.text
  let inAttributes := attributes.filterMap fun found =>
    (found.classOffset? markup name).map fun offset => (offset, ("class" : Text))
  let inDirectives := (directiveOffsets markup name).map fun hit => (hit, ("class:directive" : Text))
  let inQuotes := (quotedOffsets attributes markup name).map fun hit => (hit, ("dynamic" : Text))
  ((inAttributes ++ inDirectives ++ inQuotes).mergeSort fun a b => a.1 ≤ b.1).map
    fun (offset, kind) => document.markupUsage offset kind none

def idAttribute? (c : Cursor) : Option ((Nat × Text) × Cursor) := do
  let ((offset, place), _) ← ClassAttribute.assignment? "id" c
  let quote ← place.peek?
  if quote == '"' || quote == '\'' then
    let (value, stop) ← (place.advance 1).quoted? quote
    some ((offset, value), stop)
  else none

/-- The uses of an id. A page-wide rule for an id of the page counts as used where it stands. -/
def idUsages (document : Document) (selector : StyleSelector) : List Usage :=
  if selector.isGlobal && document.options.globalIds.contains selector.name then
    [{ position := selector.position, context := "global ID auto-detected as used"
       elementName := some "global", attributeName := some "id" }]
  else
    (Cursor.collect idAttribute? document.markup.text).filterMap fun (offset, value) =>
      if Text.trim value == selector.name then some (document.markupUsage offset "id" none) else none

def elementUsages (document : Document) (name : Text) : List Usage :=
  let markup := document.markup.text
  let hits := (markup.occurrences ('<' :: name)).filter fun hit =>
    !(markup.drop (hit + name.length + 1)).head?.any (!isTagNameEnd ·)
  hits.map fun hit => document.markupUsage hit "element" (some name)

def findUsages (selector : StyleSelector) (document : Document) (attributes : List ClassAttribute) :
    List Usage :=
  match selector.kind with
  | .cssClass => classUsages document attributes selector.name
  | .id => idUsages document selector
  | .element => elementUsages document selector.name
  | .attribute => []
  | .descendant => []

end StyleSelector

end ComponentAudit
