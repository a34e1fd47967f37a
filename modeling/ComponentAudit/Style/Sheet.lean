import ComponentAudit.Text.Lowercase
import ComponentAudit.Text.Cursor

/-!
Style sheets as flat lists: rules in the order in which their blocks open, each with the declarations
written directly inside it, and the at-rules without a body. A rule knows the rules around it by their
places in the list.
-/

namespace ComponentAudit

/-- One property with its value. The name is in lower case unless it is a custom property. -/
structure Declaration where
  property : Text
  offset : Nat
  value : Text
  important : Bool

/-- A selector list with the declarations of its block. -/
structure Rule where
  /-- The selector list with its white space squeezed. -/
  selectorText : Text
  /-- The selector list as written. -/
  rawText : Text
  offset : Nat
  /-- The header of the nearest conditional at-rule around the rule, or nothing. -/
  context : Text
  /-- The rules around this one, by place in the sheet, nearest first. -/
  enclosing : List Nat
  declarations : List Declaration := []

/-- The selector list of a rule: as written, or squeezed if it is not known how it was written. -/
def Rule.selectorList (rule : Rule) : Text :=
  if rule.rawText.isEmpty then rule.selectorText else rule.rawText

/-- An at-rule without a body. -/
structure Statement where
  name : Text
  prelude : Text
  offset : Nat

structure Sheet where
  rules : List Rule := []
  statements : List Statement := []

namespace Sheet

def addRule (sheet : Sheet) (rule : Rule) : Sheet := { sheet with rules := sheet.rules ++ [rule] }

def addStatement (sheet : Sheet) (statement : Statement) : Sheet :=
  { sheet with statements := sheet.statements ++ [statement] }

def addDeclaration (sheet : Sheet) (place : Nat) (declaration : Declaration) : Sheet :=
  { sheet with
    rules := sheet.rules.modify place fun rule =>
      { rule with declarations := rule.declarations ++ [declaration] } }

/-- The rules around a rule, nearest first. -/
def ancestors (sheet : Sheet) (rule : Rule) : List Rule :=
  rule.enclosing.filterMap (sheet.rules[·]?)

end Sheet

/-- At-rules whose blocks hold no selectors. -/
def skippedAtRules : List Text :=
  ["keyframes", "font-face", "page", "counter-style", "property", "font-feature-values"]

/-- At-rules whose blocks hold ordinary rules under a condition. -/
def conditionalAtRules : List Text :=
  ["media", "supports", "container", "layer", "document", "scope"]

/-- A name without the vendor mark in front: `-webkit-keyframes` is `keyframes`, `-moz` is `moz`. -/
def dropVendor (name : Text) : Text :=
  match name with
  | '-' :: rest => ((Text.cut? "-" rest).map (·.2)).getD rest
  | _ => name

/-- The name of an at-rule in lower case and without a vendor mark; nothing if the header does not
open with one. -/
def atRuleName (header : Text) : Text :=
  let isNameChar := fun c => isWordChar c || c == '-'
  match header with
  | '@' :: '-' :: c :: rest =>
    if isAsciiLetter c then dropVendor (Text.lower ('-' :: c :: rest.takeWhile isNameChar)) else []
  | '@' :: c :: rest =>
    if isAsciiLetter c then dropVendor (Text.lower (c :: rest.takeWhile isNameChar)) else []
  | _ => []

/-- Whether a name can be a property: an optional hyphen and a letter, or two hyphens, in front of
word characters and hyphens. -/
def isPropertyName (name : Text) : Bool :=
  let isNameChar := fun c => isWordChar c || c == '-'
  let isHead := fun c => isAsciiLetter c || c == '_'
  match name with
  | '-' :: '-' :: rest => rest.all isNameChar
  | '-' :: c :: rest => isHead c && rest.all isNameChar
  | c :: rest => isHead c && rest.all isNameChar
  | [] => false

/-- Whether a character is the given small ASCII letter whatever its case. The dotted capital `İ`
and the dotless `ı` count as `i`. -/
def equalsIgnoringCase (letter c : Char) : Bool :=
  c == letter || (isAsciiCapital c && c.toNat + 32 == letter.toNat) ||
    (letter == 'i' && (c.toNat == 0x130 || c.toNat == 0x131))

/-- The rest behind a small ASCII word, whatever the case of its letters. -/
def dropIgnoringCase? : Text → Text → Option Text
  | [], t => some t
  | _ :: _, [] => none
  | w :: word, c :: t => if equalsIgnoringCase w c then dropIgnoringCase? word t else none

def isImportant : Text → Bool
  | [] => false
  | c :: rest =>
    (c == '!' && match dropIgnoringCase? "important" (rest.dropWhile isSpace) with
      | some after => !after.head?.any isWordChar
      | none => false) || isImportant rest

/-- The declaration in a segment that starts at `offset`, if it holds one. -/
def Declaration.ofSegment? (offset : Nat) (segment : Text) : Option Declaration := do
  let (written, value) ← Text.cut? ":" segment
  let name := Text.trim written
  if !isPropertyName name then none
  else
    let value := Text.trim value
    some {
      property := if ("--" : Text).isPrefixOf name then name else Text.lower name
      offset := offset + (written.takeWhile isSpace).length
      value
      important := isImportant value }

end ComponentAudit
