import ComponentAudit.Text.Basic

/-!
Occurrences of one text in another, and the occurrences that are whole identifiers.
-/

namespace ComponentAudit.Text

/-- The offsets of `needle` in the rest of a text that starts at `offset`. -/
def occurrencesFrom (needle : Text) (offset : Nat) : Text → List Nat
  | [] => []
  | c :: rest =>
    if needle.isPrefixOf (c :: rest) then offset :: occurrencesFrom needle (offset + 1) rest
    else occurrencesFrom needle (offset + 1) rest

/-- The offsets of `needle`, overlapping occurrences included. An empty needle occurs nowhere. -/
def occurrences (t needle : Text) : List Nat :=
  if needle.isEmpty then [] else occurrencesFrom needle 0 t

def occurrencesIn (t needle : Text) (start stop : Nat) : List Nat :=
  (t.occurrences needle).filter fun p => start ≤ p && p + needle.length ≤ stop

/-- Whether no identifier character touches the span from outside. -/
def isWholeToken (t : Text) (start stop : Nat) : Bool :=
  !(t.take start).getLast?.any isIdentChar && !(t.drop stop).head?.any isIdentChar

/-- The occurrences of `name` between two offsets that are whole identifiers of the text. -/
def tokensIn (t name : Text) (start stop : Nat) : List Nat :=
  (t.occurrencesIn name start stop).filter fun p => t.isWholeToken p (p + name.length)

def tokens (t name : Text) : List Nat := t.tokensIn name 0 t.length

end ComponentAudit.Text
