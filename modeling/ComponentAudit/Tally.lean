import ComponentAudit.Text.Basic

/-!
Counters by name, in order. A name that is missing counts as zero.
-/

namespace ComponentAudit

/-- Named counters in order, each name once. -/
abbrev Tally := List (Text × Int)

namespace Tally

def get (tally : Tally) (name : Text) : Int := (tally.lookup name).getD 0

def has (tally : Tally) (name : Text) : Bool := (tally.lookup name).isSome

/-- Adds to a counter, or starts it behind the others. -/
def add (tally : Tally) (entry : Text × Int) : Tally :=
  if tally.has entry.1 then
    tally.map fun (name, value) => (name, if name == entry.1 then value + entry.2 else value)
  else tally ++ [entry]

def addAll (tally other : Tally) : Tally := other.foldl add tally

/-- The change of every counter: those of `before` first, then those that only `after` has. -/
def difference (before after : Tally) : Tally :=
  let names := before.map (·.1) ++ (after.map (·.1)).filter (!before.has ·)
  names.map fun name => (name, after.get name - before.get name)

end Tally

end ComponentAudit
