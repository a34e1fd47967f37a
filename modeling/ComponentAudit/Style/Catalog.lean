import ComponentAudit.Component.Region
import ComponentAudit.Component.Usage
import ComponentAudit.Style.Scan
import ComponentAudit.Style.Selector

/-!
The selectors and imports that a style element declares. Selectors of one text are one entry, with
the properties of all their rules; rules under a condition are left out.
-/

namespace ComponentAudit

structure StyleSelector where
  selectorText : Text
  kind : SelectorKind
  name : Text
  position : Position
  sourceBlock : Text
  properties : List Text
  htmlUsages : List Usage := []

def StyleSelector.isGlobal (selector : StyleSelector) : Bool :=
  ("Global" : Text).isPrefixOf selector.sourceBlock

structure StyleImport where
  path : Text
  position : Position

namespace StyleSelector

/-- Whether a rule stands somewhere inside a `:global` rule. -/
def underGlobal (sheet : Sheet) (rule : Rule) : Bool :=
  (sheet.ancestors rule).any fun ancestor => (":global" : Text).isPrefixOf ancestor.selectorText

/-- The selector that one part of a rule's list declares. A part that refers to its parent, a bare
`:global`, and a part without a name declare none. -/
def ofPart? (index : LineIndex) (region : StyleRegion) (sheet : Sheet) (rule : Rule)
    (part : Text) (relative : Nat) : Option StyleSelector :=
  let selectorText := Text.squeeze part
  if selectorText.contains '&' || selectorText == ":global" then none
  else
    let found := Selector.classify selectorText
    if found.name.isEmpty then none
    else
      let autoUse :=
        if found.autoUse.isNone && underGlobal sheet rule then some .global else found.autoUse
      let position := index.position (region.span.bodyStart + rule.offset + relative)
      some {
        selectorText, position
        kind := found.kind
        name := found.name
        sourceBlock := region.label
        properties := rule.declarations.map (·.property)
        htmlUsages := (autoUse.map fun use =>
          { position, context := use.context, attributeName := some use.label : Usage }).toList }

def ofRule (index : LineIndex) (region : StyleRegion) (sheet : Sheet) (rule : Rule) :
    List StyleSelector :=
  if rule.context.head? == some '@' then []
  else (Selector.split rule.selectorList).filterMap fun (part, relative) =>
    ofPart? index region sheet rule part relative

/-- Adds a selector: its properties to the entry of the same text, or itself as a new entry. -/
def merge (found : List StyleSelector) (selector : StyleSelector) : List StyleSelector :=
  if found.any (·.selectorText == selector.selectorText) then
    found.map fun entry =>
      if entry.selectorText == selector.selectorText then
        { entry with properties := entry.properties ++ selector.properties }
      else entry
  else found ++ [selector]

def ofSheet (index : LineIndex) (region : StyleRegion) (sheet : Sheet) : List StyleSelector :=
  (sheet.rules.flatMap (ofRule index region sheet)).foldl merge []

end StyleSelector

namespace StyleImport

/-- Characters of a path that needs no quotes. -/
def isPathChar (c : Char) : Bool :=
  !(c == '\'' || c == '"' || c == ')' || c == ';' || isSpace c)

def path? (t : Text) : Option Text :=
  match t with
  | [] => none
  | c :: rest =>
    let quoted := c == '\'' || c == '"'
    let path := (if quoted then rest else t).takeWhile isPathChar
    if path.isEmpty then none
    else if quoted && (rest.drop path.length).head? != some c then none
    else some path

/-- The path in the text of an import statement. A `url(` that no path follows is itself the path. -/
def ofPrelude? (prelude : Text) : Option Text := do
  let rest ← dropIgnoringCase? "@import" prelude
  if !rest.head?.any isSpace then none
  else
    let rest := Text.trimLeft rest
    ((dropIgnoringCase? "url(" rest).bind fun inner => path? (Text.trimLeft inner)).or (path? rest)

def ofSheet (index : LineIndex) (region : StyleRegion) (sheet : Sheet) : List StyleImport :=
  sheet.statements.filterMap fun statement =>
    if statement.name == ("import" : Text) then
      (ofPrelude? statement.prelude).map fun path =>
        ⟨path, index.position (region.span.bodyStart + statement.offset)⟩
    else none

end StyleImport

end ComponentAudit
