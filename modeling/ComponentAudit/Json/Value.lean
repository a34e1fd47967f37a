import ComponentAudit.Text.Basic

/-!
JSON values. Objects keep their members in order. A number is an integer, or a decimal fraction with
its exponent, or one of the words for values that are not finite.
-/

namespace ComponentAudit

inductive Json where
  | null
  | bool (value : Bool)
  | int (value : Int)
  /-- The number `mantissa * 10 ^ exponent`, written with a point or an exponent. -/
  | decimal (mantissa exponent : Int)
  /-- A number that is not finite. -/
  | nonFinite
  | str (value : Text)
  | arr (items : List Json)
  | obj (members : List (Text × Json))

namespace Json

def nat (n : Nat) : Json := .int n

/-- A value, or `null` for none. -/
def ofOption {α : Type} (encode : α → Json) : Option α → Json
  | none => .null
  | some a => encode a

def texts (items : List Text) : Json := .arr (items.map .str)

/-- An object with several groups of members. -/
def concat (groups : List (List (Text × Json))) : Json := .obj groups.flatten

/-- The last member of a name; later members replace earlier ones. -/
def member? : Json → Text → Option Json
  | .obj members, name => members.reverse.lookup name
  | _, _ => none

end Json

end ComponentAudit
