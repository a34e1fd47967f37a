import ComponentAudit.Yaml.Value

/-!
Plain scalars with a type: null, truth values, integers in several bases, decimal fractions, dates.
Every other plain scalar is a text. An underscore may stand between digits.
-/

namespace ComponentAudit.Yaml

def nullWords : List Text := ["", "~", "null", "Null", "NULL"]

def trueWords : List Text := ["yes", "Yes", "YES", "true", "True", "TRUE", "on", "On", "ON"]

def falseWords : List Text := ["no", "No", "NO", "false", "False", "FALSE", "off", "Off", "OFF"]

/-- Splits off a sign; true for a minus. -/
def splitSign : Text → Bool × Text
  | '-' :: rest => (true, rest)
  | '+' :: rest => (false, rest)
  | t => (false, t)

def digit? (base : Nat) (c : Char) : Option Nat :=
  let n := c.toNat
  let value :=
    if 48 ≤ n && n ≤ 57 then some (n - 48)
    else if 97 ≤ n && n ≤ 102 then some (n - 87)
    else if 65 ≤ n && n ≤ 70 then some (n - 55)
    else none
  value.filter (· < base)

/-- The number that digits of a base stand for, underscores apart. There is at least one digit. -/
def digits? (base : Nat) (t : Text) : Option Nat :=
  let digits := t.filter (· != '_')
  if digits.isEmpty then none
  else digits.foldlM (fun n c => (digit? base c).map (n * base + ·)) 0

def opensWithDigit (t : Text) : Bool := t.head?.any isAsciiDigit

/-- The number that a place of base sixty stands for: one or two digits. -/
def sixtieth? (t : Text) : Option Nat :=
  if t.length ≤ 2 && t.all isAsciiDigit then (digits? 10 t).filter (· < 60) else none

/-- The number that places of base sixty behind a first number stand for. -/
def sexagesimal? (first : Nat) (places : List Text) : Option Nat :=
  places.foldlM (fun n place => (sixtieth? place).map (n * 60 + ·)) first

/-- A natural number in one of the notations. -/
def nat? : Text → Option Nat
  | ['0'] => some 0
  | '0' :: 'b' :: rest => digits? 2 rest
  | '0' :: 'x' :: rest => digits? 16 rest
  | '0' :: rest => if rest.head? == some '_' || opensWithDigit rest then
      (digits? 8 ('0' :: rest)) else none
  | t =>
    if !opensWithDigit t then none
    else
      match Text.splitOn ':' t with
      | first :: places => do sexagesimal? (← digits? 10 first) places
      | [] => none

def int? (t : Text) : Option Int :=
  let (negative, body) := splitSign t
  (nat? body).map fun n => if negative then -(n : Int) else n

def exponent? : Text → Option Int
  | [] => some 0
  | e :: sign :: digits =>
    if (e == 'e' || e == 'E') && (sign == '+' || sign == '-') && digits.all isAsciiDigit then
      (digits? 10 digits).map fun n => if sign == '-' then -(n : Int) else n
    else none
  | _ => none

/-- Whether a character may stand among the digits of a fraction. -/
def isFractionChar (c : Char) : Bool := isAsciiDigit c || c == '_'

def decimal? (whole : Nat) (behind : Text) : Option Decimal := do
  let digits := (behind.takeWhile isFractionChar).filter (· != '_')
  let exponent ← exponent? (behind.dropWhile isFractionChar)
  let fraction := (digits? 10 digits).getD 0
  return ⟨whole * Nat.pow 10 digits.length + fraction, exponent - digits.length⟩

/-- The size of a decimal fraction with a whole part, which may have places of base sixty. -/
def magnitude? (t : Text) : Option Decimal := do
  if !opensWithDigit t then none
  else
    let (whole, behind) ← Text.cut? "." t
    match Text.splitOn ':' whole with
    | [] => none
    | [digits] => decimal? (← digits? 10 digits) behind
    | first :: places =>
      if behind.all isFractionChar then
        decimal? (← sexagesimal? (← digits? 10 first) places) behind
      else none

/-- A floating point number. Only one with a whole part may have a sign. -/
def float? (t : Text) : Option FloatNumber :=
  let (negative, body) := splitSign t
  if body == ".inf" || body == ".Inf" || body == ".INF" then some (.infinite negative)
  else if t == ".nan" || t == ".NaN" || t == ".NAN" then some .notANumber
  else
    match t with
    | '.' :: behind =>
      if opensWithDigit behind then (decimal? 0 behind).map (.finite false) else none
    | _ => (magnitude? body).map (.finite negative)

def isDate (t : Text) : Bool :=
  match Text.splitOn '-' t with
  | [year, month, day] =>
    year.length == 4 && month.length == 2 && day.length == 2 &&
      (year ++ month ++ day).all isAsciiDigit
  | _ => false

def ofPlain (t : Text) : Yaml :=
  if nullWords.contains t then .null
  else if trueWords.contains t then .bool true
  else if falseWords.contains t then .bool false
  else if isDate t then .other
  else
    match float? t, int? t with
    | some x, _ => .float x
    | none, some n => .int n
    | none, none => .str t

end ComponentAudit.Yaml
