import ComponentAudit.Text.Basic

/-!
Lower-casing of whole texts. Two characters need more than a table: `İ` becomes two characters, and
`Σ` becomes `ς` at the end of a word and `σ` elsewhere.
-/

namespace ComponentAudit.Text

/-- Whether a character has case and is not skipped in the search for a neighbour's case. -/
def isCased (c : Char) : Bool :=
  if c.toNat < 128 then isAsciiLetter c else LetterTable.covers CaseTable.cased c.toNat

def isCaseSkipped (c : Char) : Bool :=
  if c.toNat < 128 then ("'.:^`" : Text).contains c
  else LetterTable.covers CaseTable.skipped c.toNat

/-- Whether the first character that is not skipped has case. -/
def opensCased (t : Text) : Bool :=
  match t.dropWhile isCaseSkipped with
  | [] => false
  | c :: _ => isCased c

/-- The lower-case form of one character, given the characters before it (nearest first) and after
it. -/
def lowerChar (before : Text) (c : Char) (after : Text) : Text :=
  let n := c.toNat
  if n < 128 then [if isAsciiCapital c then Char.ofNat (n + 32) else c]
  else if n == 0x130 then ['i', '\u0307']
  else if n == 0x3a3 then [if opensCased before && !opensCased after then 'ς' else 'σ']
  else [((CaseTable.capitals.findSome? (·.lower? n)).map Char.ofNat).getD c]

def lowerFrom (before : Text) : Text → Text
  | [] => []
  | c :: after => lowerChar before c after ++ lowerFrom (c :: before) after

def lower (t : Text) : Text := lowerFrom [] t

end ComponentAudit.Text
