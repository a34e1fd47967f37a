import ComponentAudit.Script.Vocabulary
import ComponentAudit.Text.Cursor

/-!
Whether a name stands in a type rather than in a program. The evidence is textual: a colon in front
of the name, a brace that opens a type literal, a type keyword behind the name.
-/

namespace ComponentAudit.TypeContext

def startsWithTypeKeyword (t : Text) : Bool :=
  Vocabulary.typeKeywords.any fun keyword =>
    match Text.dropPrefix? keyword (Text.trimLeft t) with
    | some rest => !rest.head?.any isIdentChar
    | none => false

/-- The openings of a line that declares a type. -/
def typeHeads : List Text := ["type ", "interface ", "export type ", "export interface "]

/-- Whether the brace that follows `before` opens a type literal: a sign of types stands in front of
it, or its line declares a type. -/
def opensTypeLiteral (before : Text) : Bool :=
  match before.dropWhile isSpace with
  | [] => false
  | c :: _ =>
    c == ':' || c == '<' || c == '|' || c == '&' ||
      let head := Text.trim (before.takeWhile (· != '\n')).reverse
      typeHeads.any (·.isPrefixOf head)

/-- Looks backwards for the innermost open brace; `depth` closing braces still want a partner. -/
def insideLiteralFrom (depth : Nat) : Text → Bool
  | [] => false
  | c :: before =>
    if c == '}' then insideLiteralFrom (depth + 1) before
    else if c == '{' then
      match depth with
      | 0 => opensTypeLiteral before
      | depth + 1 => insideLiteralFrom depth before
    else insideLiteralFrom depth before

/-- Whether the innermost open brace before a place opens a type literal. -/
def insideTypeLiteral (c : Cursor) : Bool := insideLiteralFrom 0 c.before

/-- Whether the name of the given length at a place looks like part of a type: a colon right in front
of it, or a brace and a colon among the ten characters before it, or the name of a coordinate or size
inside a type literal or in front of a type keyword. -/
def looksLikeAnnotation (c : Cursor) (size : Nat) : Bool :=
  let nearby := c.before.take 10
  c.lastInk? == some ':' || (nearby.contains '{' && nearby.contains ':') ||
    (Vocabulary.geometryNames.contains (c.after.take size) &&
      (insideTypeLiteral c ||
        match (c.advance size).skipSpaces.after with
        | [] => false
        | mark :: rest =>
          (mark == ':' || mark == '?') &&
            startsWithTypeKeyword ((rest.take 15).dropWhile fun ch => ch == '?' || ch == ':')))

end ComponentAudit.TypeContext
