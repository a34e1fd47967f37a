import ComponentAudit.Text.Cursor

/-!
Offsets as lines and columns. Only a line feed starts a line. `LineIndex` keeps the offsets at which
the lines of a text start, and a position is found by passing the starts up to the offset.
-/

namespace ComponentAudit

/-- A line and a column, both counted from one. -/
structure Position where
  line : Nat
  column : Nat
  deriving DecidableEq

/-- The offsets that follow a line feed, in a text that starts at `offset`. -/
def lineStartsFrom (offset : Nat) : Text → List Nat
  | [] => []
  | c :: rest =>
    if c == '\n' then (offset + 1) :: lineStartsFrom (offset + 1) rest
    else lineStartsFrom (offset + 1) rest

/-- The offsets at which the lines of a text start, with the text's length. -/
structure LineIndex where
  size : Nat
  starts : List Nat

namespace LineIndex

def ofText (t : Text) : LineIndex := ⟨t.length, 0 :: lineStartsFrom 0 t⟩

def lineCount (index : LineIndex) : Nat := index.starts.length

/-- The position of an offset; one past the end counts as the end. -/
def position (index : LineIndex) (offset : Nat) : Position :=
  let place := min offset index.size
  let passed := index.starts.takeWhile (· ≤ place)
  ⟨passed.length, place - passed.getLastD 0 + 1⟩

/-- The position of a whole number; one in front of the text counts as its start. -/
def locate (index : LineIndex) (offset : Int) : Position := index.position offset.toNat

end LineIndex

def lineContext (t : Text) (offset : Nat) : Text := Text.trim (Cursor.seek t offset).line

/-- The trimmed line around a whole number; one in front of the text counts as its start. -/
def contextAt (t : Text) (offset : Int) : Text := lineContext t offset.toNat

end ComponentAudit
