import ComponentAudit.Component.Region
import ComponentAudit.Style.Scan
import ComponentAudit.Style.Selector

/-!
Properties that are declared again for the same selector. Declarations are grouped by condition,
selector and property over all style elements; in the order of the file, each declaration of a group
overrides the one before it.
-/

namespace ComponentAudit

/-- A declaration that overrides an earlier one. -/
structure StyleOverride where
  property : Text
  selector : Text
  position : Position
  specificity : Nat
  important : Bool
  previous : Position

/-- Where the overridden declaration stands, in words. -/
def StyleOverride.conflictsWith (override : StyleOverride) : Text :=
  "Previous declaration at [" ++ Text.ofNat override.previous.line ++ ":" ++
    Text.ofNat override.previous.column ++ "]"

namespace StyleOverride

/-- What two declarations share if one overrides the other. -/
structure Key where
  context : Text
  selector : Text
  property : Text
  deriving BEq

/-- A declaration for one selector, by its offset in the file. -/
structure Occurrence where
  offset : Nat
  important : Bool

/-- The occurrences of a rule: one for each declaration and each selector of its list. -/
def occurrencesOfRule (base : Nat) (rule : Rule) : List (Key × Occurrence) :=
  rule.declarations.flatMap fun declaration =>
    (Selector.split rule.selectorList).map fun (part, _) =>
      (⟨rule.context, Text.squeeze part, declaration.property⟩,
        ⟨base + declaration.offset, declaration.important⟩)

def occurrences (blocks : List (StyleRegion × Sheet)) : List (Key × Occurrence) :=
  blocks.flatMap fun (region, sheet) =>
    sheet.rules.flatMap (occurrencesOfRule region.span.bodyStart)

/-- The occurrences of one key in the order of the file. -/
def group (found : List (Key × Occurrence)) (key : Key) : List Occurrence :=
  ((found.filter (·.1 == key)).map (·.2)).mergeSort fun a b => a.offset ≤ b.offset

/-- The overrides of a group, each with its offset. -/
def ofGroup (index : LineIndex) (key : Key) (occurrences : List Occurrence) :
    List (Nat × StyleOverride) :=
  let weight := Selector.specificity key.selector
  (occurrences.zip (occurrences.drop 1)).map fun (previous, current) =>
    (current.offset, {
      property := key.property
      selector := key.selector
      position := index.position current.offset
      specificity := weight
      important := current.important
      previous := index.position previous.offset })

/-- The order of overrides: by offset, then by selector. -/
def le (a b : Nat × StyleOverride) : Bool :=
  a.1 < b.1 || (a.1 == b.1 && Text.le a.2.selector b.2.selector)

def findAll (index : LineIndex) (blocks : List (StyleRegion × Sheet)) : List StyleOverride :=
  let found := occurrences blocks
  let keys := (found.map (·.1)).eraseDups
  let overrides := keys.flatMap fun key => ofGroup index key (group found key)
  (overrides.mergeSort le).map (·.2)

end StyleOverride

end ComponentAudit
