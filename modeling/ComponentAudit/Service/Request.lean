import ComponentAudit.Component.Options
import ComponentAudit.Decimal
import ComponentAudit.Json.Reader

/-!
Reading the body of a request for an analysis. All fields are checked, and the errors of all of them
are reported in the order of the fields. Unknown fields are passed over.
-/

namespace ComponentAudit.Service

inductive Problem where
  | missing
  | invalidJson
  | notAText
  | notAList
  | notAnObject
  /-- A text or whole number that is no truth value. -/
  | unreadableTruth
  /-- A value of a type that no truth value has. -/
  | notATruth
  deriving DecidableEq

def Problem.label : Problem → Text
  | .missing => "missing"
  | .invalidJson => "json_invalid"
  | .notAText => "string_type"
  | .notAList => "list_type"
  | .notAnObject => "model_attributes_type"
  | .unreadableTruth => "bool_parsing"
  | .notATruth => "bool_type"

inductive Step where
  | field (name : Text)
  | item (index : Nat)
  deriving DecidableEq

structure FieldError where
  problem : Problem
  place : List Step

/-- A value, or all that is wrong with it. -/
abbrev Checked := Except (List FieldError)

namespace Checked

def fail {α : Type} (problem : Problem) (place : List Step) : Checked α := .error [⟨problem, place⟩]

/-- Joins two checks; the errors of the first come first. -/
def both {α β γ : Type} (join : α → β → γ) : Checked α → Checked β → Checked γ
  | .ok a, .ok b => .ok (join a b)
  | .error first, .ok _ => .error first
  | .ok _, .error second => .error second
  | .error first, .error second => .error (first ++ second)

def all {α : Type} : List (Checked α) → Checked (List α)
  | [] => .ok []
  | first :: rest => both (· :: ·) first (all rest)

end Checked

def readText (place : List Step) : Json → Checked Text
  | .str t => .ok t
  | _ => .fail .notAText place

def readTexts (place : List Step) : Json → Checked (List Text)
  | .arr items =>
    .all (items.zipIdx.map fun (item, index) => readText (place ++ [.item index]) item)
  | _ => .fail .notAList place

def trueWords : List Text := ["1", "on", "t", "true", "y", "yes"]

def falseWords : List Text := ["0", "off", "f", "false", "n", "no"]

def truthOfWord? (word : Text) : Option Bool :=
  let word := word.map Char.toLower
  if trueWords.contains word then some true
  else if falseWords.contains word then some false
  else none

/-- The truth value of a whole number: one is true and zero is false. -/
def truthOfNumber? (n : Int) : Option Bool :=
  if n == 1 then some true else if n == 0 then some false else none

/-- The whole number that a decimal is rounded to; none if it is rounded to a fraction, or too large. -/
def wholeOfDecimal? (mantissa exponent : Int) : Option Int := do
  let value ← Binary.ofDecimal? ⟨mantissa.natAbs, exponent⟩
  let (n, d) := powerRatio value.mantissa 2 value.exponent
  if n % d == 0 then some (mantissa.sign * (n / d : Nat)) else none

/-- A truth value, a word for one, or one of the numbers zero and one. -/
def readTruth (place : List Step) : Json → Checked Bool
  | .bool value => .ok value
  | .str word => orUnreadable (truthOfWord? word)
  | .int n => orUnreadable (truthOfNumber? n)
  | .decimal mantissa exponent =>
    match wholeOfDecimal? mantissa exponent with
    | some n => orUnreadable (truthOfNumber? n)
    | none => .fail .notATruth place
  | _ => .fail .notATruth place
where
  orUnreadable : Option Bool → Checked Bool
    | some value => .ok value
    | none => .fail .unreadableTruth place

/-- A field of an object, or what stands for a missing one. -/
def readField {α : Type} (place : List Step) (object : Json) (name : Text)
    (read : List Step → Json → Checked α) (otherwise : Checked α) : Checked α :=
  match object.member? name with
  | some value => read (place ++ [.field name]) value
  | none => otherwise

def readOptional {α : Type} (read : List Step → Json → Checked α) (place : List Step) :
    Json → Checked (Option α)
  | .null => .ok none
  | value => (read place value).map some

def readOptions (place : List Step) (value : Json) : Checked Options :=
  let defaults : Options := {}
  match value with
  | .obj _ =>
    let scanMarkup :=
      readField place value "scan_markup_for_variables" readTruth (.ok defaults.scanMarkup)
    let globalIds :=
      readField place value "global_ids" (readOptional readTexts) (.ok none)
    let extraBuiltins :=
      readField place value "extra_builtin_methods" readTexts (.ok defaults.extraBuiltins)
    .both (fun (scanMarkup, globalIds) extraBuiltins =>
      { scanMarkup, globalIds := globalIds.getD defaults.globalIds, extraBuiltins })
      (.both Prod.mk scanMarkup globalIds) extraBuiltins
  | _ => .fail .notAnObject place

structure AnalyzeRequest where
  source : Text
  filePath : Text
  options : Options

def bodyPlace : List Step := [.field "body"]

def AnalyzeRequest.ofJson (value : Json) : Checked AnalyzeRequest :=
  let place := bodyPlace
  match value with
  | .null => .fail .missing place
  | .obj _ =>
    let source := readField place value "source" readText
      (.fail .missing (place ++ [.field "source"]))
    let filePath := readField place value "file_path" readText (.ok "Component.svelte")
    let options := readField place value "options" (readOptional readOptions) (.ok none)
    .both (fun (source, filePath) options => { source, filePath, options := options.getD {} })
      (.both Prod.mk source filePath) options
  | _ => .fail .notAnObject place

def AnalyzeRequest.ofText (body : Text) : Checked AnalyzeRequest :=
  if body.isEmpty then .fail .missing bodyPlace
  else
    match Json.ofText? body with
    | none => .fail .invalidJson bodyPlace
    | some value => ofJson value

end ComponentAudit.Service
