import ComponentAudit.Text.Basic

/-!
Decimal numbers as binary floating point keeps them. A decimal is rounded to the nearest value with a
mantissa of 53 bits, a tie to the even mantissa; a value is written with the fewest digits that are
rounded back to it, and of those with the nearest ones. All arithmetic is exact.
-/

namespace ComponentAudit

/-- The number `digits * 10 ^ exponent`. -/
structure Decimal where
  digits : Nat
  exponent : Int
  deriving DecidableEq

/-- The number `mantissa * 2 ^ exponent`. -/
structure Binary where
  mantissa : Nat
  exponent : Int
  deriving DecidableEq

/-- A quotient rounded to the nearest integer, a tie to the even one. -/
def roundDiv (numerator denominator : Nat) : Nat :=
  let quotient := numerator / denominator
  let rest := 2 * (numerator % denominator)
  if rest < denominator || (rest == denominator && quotient % 2 == 0) then quotient else quotient + 1

/-- The numerator and denominator of `digits * base ^ exponent`. -/
def powerRatio (digits base : Nat) (exponent : Int) : Nat × Nat :=
  (digits * base.pow exponent.toNat, base.pow (-exponent).toNat)

namespace Binary

def leastExponent : Int := -1074

def greatestExponent : Int := 971

/-- The least mantissa of full width, `2 ^ 52`. -/
def fullMantissa : Nat := 0x10000000000000

/-- The value nearest to a positive ratio, whatever its size. -/
def ofRatio (numerator denominator : Nat) : Binary :=
  let guess : Int := numerator.log2 - denominator.log2 - 52
  let scaled := fun (exponent : Int) =>
    (numerator * Nat.pow 2 (-exponent).toNat, denominator * Nat.pow 2 exponent.toNat)
  let (n, d) := scaled guess
  let exponent := max (if n < fullMantissa * d then guess - 1 else guess) leastExponent
  let (n, d) := scaled exponent
  let mantissa := roundDiv n d
  if mantissa == 2 * fullMantissa then ⟨fullMantissa, exponent + 1⟩ else ⟨mantissa, exponent⟩

/-- The value nearest to a decimal; none if it is too large. -/
def ofDecimal? (decimal : Decimal) : Option Binary :=
  let magnitude := decimal.exponent + (Nat.toDigits 10 decimal.digits).length
  if decimal.digits == 0 || magnitude < -330 then some ⟨0, 0⟩
  else if 310 < magnitude then none
  else
    let (n, d) := powerRatio decimal.digits 10 decimal.exponent
    let value := ofRatio n d
    if value.exponent ≤ greatestExponent then some value else none

def compareDecimal (decimal : Decimal) (mantissa : Nat) (exponent : Int) : Ordering :=
  let (n, d) := powerRatio decimal.digits 10 decimal.exponent
  let (n', d') := powerRatio mantissa 2 exponent
  compare (n * d') (n' * d)

/-- Whether a decimal is rounded to this value: it lies between the halfway points to the neighbours,
and on one only if the mantissa is even. The neighbour below a power of two is nearer. -/
def readsBack (value : Binary) (decimal : Decimal) : Bool :=
  let narrow := value.mantissa == fullMantissa && leastExponent < value.exponent
  let below := compareDecimal decimal (4 * value.mantissa - (if narrow then 1 else 2))
    (value.exponent - 2)
  let above := compareDecimal decimal (4 * value.mantissa + 2) (value.exponent - 2)
  let even := value.mantissa % 2 == 0
  (below == .gt || (even && below == .eq)) && (above == .lt || (even && above == .eq))

/-- The decimal of one step of a grid that is nearest to the value among those that read back. -/
def onGrid? (value : Binary) (step : Int) : Option Decimal :=
  let (n, d) := powerRatio value.mantissa 2 value.exponent
  let (s, s') := powerRatio 1 10 step
  let low := n * s' / (d * s)
  let candidates := [(⟨low, step⟩ : Decimal), ⟨low + 1, step⟩].filter value.readsBack
  match candidates with
  | [first, second] =>
    match compare (2 * n * s') ((2 * low + 1) * (d * s)) with
    | .gt => some second
    | .lt => some first
    | .eq => some (if low % 2 == 0 then first else second)
  | _ => candidates.head?

/-- The exponents of ten from which a grid can be chosen, the coarsest first. -/
def steps : List Int := (List.range 640).map fun (n : Nat) => 309 - (n : Int)

/-- The shortest decimal that reads back; zero for zero. -/
def shortest (value : Binary) : Decimal :=
  if value.mantissa == 0 then ⟨0, 0⟩ else ((steps.findSome? value.onGrid?).getD ⟨0, 0⟩)

end Binary

namespace Decimal

/-- The digits with a point behind the first `point` of them, filled up with zeros. -/
def positional (digits : Text) (point : Int) : Text :=
  if point ≤ 0 then "0." ++ List.replicate (-point).toNat '0' ++ digits
  else if digits.length ≤ point.toNat then
    digits ++ List.replicate (point.toNat - digits.length) '0' ++ ".0"
  else digits.take point.toNat ++ "." ++ digits.drop point.toNat

/-- The digits with a point behind the first, and an exponent of at least two digits. -/
def scientific (digits : Text) (exponent : Int) : Text :=
  let fraction : Text := if digits.length ≤ 1 then [] else '.' :: digits.drop 1
  let size := Text.ofNat exponent.natAbs
  let padded : Text := if size.length < 2 then '0' :: size else size
  digits.take 1 ++ fraction ++ ['e', if exponent < 0 then '-' else '+'] ++ padded

/-- A decimal in text: positional from `0.0001` up to sixteen digits, else with an exponent. -/
def text (decimal : Decimal) : Text :=
  let digits := Text.ofNat decimal.digits
  let point := decimal.exponent + digits.length
  let kept := (digits.reverse.dropWhile (· == '0')).reverse
  let digits : Text := if kept.isEmpty then ['0'] else kept
  let point := if kept.isEmpty then 1 else point
  if -4 < point && point ≤ 16 then positional digits point else scientific digits (point - 1)

end Decimal

/-- A floating point number: a rounded decimal with its sign, or one of the values beyond. -/
inductive FloatNumber where
  | finite (negative : Bool) (magnitude : Decimal)
  | infinite (negative : Bool)
  | notANumber
  deriving DecidableEq

def FloatNumber.text : FloatNumber → Text
  | .notANumber => "nan"
  | .infinite negative => if negative then "-inf" else "inf"
  | .finite negative magnitude =>
    let body : Text := match Binary.ofDecimal? magnitude with
      | none => "inf"
      | some value => value.shortest.text
    if negative then '-' :: body else body

end ComponentAudit
