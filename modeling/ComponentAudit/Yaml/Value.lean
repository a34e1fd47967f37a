import ComponentAudit.Decimal

/-!
The values that a YAML document stands for. A mapping keeps its entries in order; of several entries
with one key the last counts. Who reads a document is a parameter of whatever needs its value. What
contains itself stands here as far as anyone looks into it, which is a few steps.
-/

namespace ComponentAudit

inductive Yaml where
  | null
  | bool (value : Bool)
  | int (value : Int)
  | float (value : FloatNumber)
  /-- A value of another kind, such as a date, of which nothing is asked. -/
  | other
  | str (value : Text)
  | seq (items : List Yaml)
  | map (entries : List (Yaml × Yaml))

inductive YamlFailure where
  /-- The document is not well formed. -/
  | malformed (reason : Text)
  /-- The reader ends in another way. -/
  | broken

namespace Yaml

/-- Whether a value can be a key: collections cannot. -/
def isKey : Yaml → Bool
  | .seq _ | .map _ => false
  | _ => true

def isText (name : Text) : Yaml → Bool
  | .str t => t == name
  | _ => false

/-- The entry of a mapping under a text, the last one if there are several. -/
def get? (value : Yaml) (name : Text) : Option Yaml :=
  match value with
  | .map entries => (entries.reverse.find? fun entry => entry.1.isText name).map (·.2)
  | _ => none

end Yaml

end ComponentAudit
