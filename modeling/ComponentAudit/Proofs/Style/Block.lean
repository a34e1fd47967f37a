import ComponentAudit.Style.Sheet

/-! # Style texts as trees of blocks

A style text without quotes and comments is a tree: rules and at-rule blocks with what stands between
their braces, declarations, and at-rules that end with a semicolon. `Body.render` writes such a tree
down; `Body.rules` and `Body.statements` say what a reader has to find in the text. A tree is
`Writable` if none of its texts can be mistaken for something else. -/

namespace ComponentAudit.Style

/-- What the header of a block announces. -/
inductive BlockKind where
  | rule
  /-- An at-rule that puts the rules inside it under a condition. -/
  | conditional
  /-- An at-rule whose block holds no rules. -/
  | skipped
  /-- Any other at-rule, which is read as if its header and braces were not there. -/
  | transparent
  deriving DecidableEq

/-- The contents of a block or of a whole text: one node after the other. -/
inductive Body where
  | empty
  | block (kind : BlockKind) (header : Text) (inside : Body) (rest : Body)
  | declaration (property value : Text) (rest : Body)
  | statement (prelude : Text) (rest : Body)

namespace Body

/-- The contents as they are written. -/
def render : Body → Text
  | empty => []
  | block _ header inside rest => header ++ '{' :: (inside.render ++ '}' :: rest.render)
  | declaration property value rest => property ++ ':' :: (value ++ ';' :: rest.render)
  | statement prelude rest => prelude ++ ';' :: rest.render

/-- The declarations that belong to the rule right around contents that start at `offset`. Those in
at-rule blocks are among them, those in rules and in skipped blocks are not. -/
def declarations (offset : Nat) : Body → List Declaration
  | empty => []
  | block kind header inside rest =>
    (match kind with
      | .rule | .skipped => []
      | .conditional | .transparent => inside.declarations (offset + header.length + 1)) ++
    rest.declarations (offset + header.length + inside.render.length + 2)
  | declaration property value rest =>
    { property := if ("--" : Text).isPrefixOf property then property else Text.lower property
      offset, value, important := isImportant value } ::
    rest.declarations (offset + property.length + value.length + 2)
  | statement prelude rest => rest.declarations (offset + prelude.length + 1)

/-- The rules outside skipped blocks, each before those inside it, for contents that start at
`offset`. `place` is the number of rules before them, `context` the header of the nearest conditional
block around them, and `enclosing` holds the places of the rules around them, nearest first. -/
def rules (offset place : Nat) (context : Text) (enclosing : List Nat) : Body → List Rule
  | empty => []
  | block kind header inside rest =>
    let start := offset + header.length + 1
    let found := match kind with
      | .rule =>
        { selectorText := header, rawText := header, offset, context, enclosing
          declarations := inside.declarations start } ::
        inside.rules start (place + 1) context (place :: enclosing)
      | .conditional => inside.rules start place header enclosing
      | .skipped => []
      | .transparent => inside.rules start place context enclosing
    found ++ rest.rules (offset + header.length + inside.render.length + 2) (place + found.length)
      context enclosing
  | declaration property value rest =>
    rest.rules (offset + property.length + value.length + 2) place context enclosing
  | statement prelude rest => rest.rules (offset + prelude.length + 1) place context enclosing

/-- The statements outside skipped blocks, for contents that start at `offset`. -/
def statements (offset : Nat) : Body → List Statement
  | empty => []
  | block kind header inside rest =>
    (if kind = .skipped then [] else inside.statements (offset + header.length + 1)) ++
    rest.statements (offset + header.length + inside.render.length + 2)
  | declaration property value rest =>
    rest.statements (offset + property.length + value.length + 2)
  | statement prelude rest =>
    ⟨atRuleName prelude, prelude, offset⟩ :: rest.statements (offset + prelude.length + 1)

end Body

/-- Whether no bracket closes more than was opened and all are closed at the end. Round and square
brackets are counted together. -/
def balanced (depth : Nat) : Text → Bool
  | [] => depth == 0
  | c :: rest =>
    if c == '(' || c == '[' then balanced (depth + 1) rest
    else if c == ')' || c == ']' then depth != 0 && balanced (depth - 1) rest
    else balanced depth rest

/-- The characters that end a segment, open a literal or a comment, or escape. -/
def isMark (c : Char) : Bool := ("\x7b\x7d;'\"/\\" : Text).contains c

/-- A text that may stand as a header, a value or a prelude. -/
structure Plain (t : Text) : Prop where
  squeezed : Text.squeeze t = t
  nonempty : t ≠ []
  unmarked : ∀ c ∈ t, isMark c = false
  balanced : balanced 0 t = true

instance (t : Text) : Decidable (Plain t) :=
  have := List.decidableBAll (fun c => isMark c = false) t
  decidable_of_iff
    (Text.squeeze t = t ∧ t ≠ [] ∧ (∀ c ∈ t, isMark c = false) ∧ balanced 0 t = true)
    ⟨fun ⟨a, b, c, d⟩ => ⟨a, b, c, d⟩, fun ⟨a, b, c, d⟩ => ⟨a, b, c, d⟩⟩

/-- Whether a header announces a block of a kind. -/
def BlockKind.announcedBy (header : Text) : BlockKind → Bool
  | .rule => header.head? != some '@'
  | .conditional => conditionalAtRules.contains (atRuleName header)
  | .skipped => skippedAtRules.contains (atRuleName header)
  | .transparent => header.head? == some '@' && !conditionalAtRules.contains (atRuleName header) &&
      !skippedAtRules.contains (atRuleName header)

/-- Contents whose texts can be told apart once they are written down. -/
def Body.Writable : Body → Prop
  | empty => True
  | block kind header inside rest =>
    Plain header ∧ kind.announcedBy header = true ∧ inside.Writable ∧ rest.Writable
  | declaration property value rest =>
    (isPropertyName property = true ∧ ∀ c ∈ property, isSpace c = false) ∧ Plain value ∧
      rest.Writable
  | statement prelude rest => Plain prelude ∧ prelude.head? = some '@' ∧ rest.Writable

instance Body.decidableWritable : (body : Body) → Decidable body.Writable
  | empty => isTrue trivial
  | block kind header inside rest =>
    have := inside.decidableWritable
    have := rest.decidableWritable
    inferInstanceAs (Decidable (Plain header ∧ kind.announcedBy header = true ∧ inside.Writable ∧
      rest.Writable))
  | declaration property value rest =>
    have := rest.decidableWritable
    have := List.decidableBAll (fun c => isSpace c = false) property
    inferInstanceAs (Decidable ((isPropertyName property = true ∧
      ∀ c ∈ property, isSpace c = false) ∧ Plain value ∧ rest.Writable))
  | statement prelude rest =>
    have := rest.decidableWritable
    inferInstanceAs (Decidable (Plain prelude ∧ prelude.head? = some '@' ∧ rest.Writable))

end ComponentAudit.Style
