import ComponentAudit.Text.Basic

/-!
Wildcard patterns over whole names. `*` stands for any run of characters, a slash among them, `?`
for one character, and brackets for one character of a set, or not of it after `!`. A bracket that is
never closed stands for itself, and so does a backslash.
-/

namespace ComponentAudit

/-- The members of a set from `low` to `high`; none if they are the wrong way round. -/
structure CharRange where
  low : Char
  high : Char
  deriving DecidableEq

def CharRange.holds (range : CharRange) (c : Char) : Bool :=
  range.low.toNat ≤ c.toNat && c.toNat ≤ range.high.toNat

inductive GlobPart where
  | anyRun
  | anyChar
  | charSet (negated : Bool) (ranges : List CharRange)
  | literal (c : Char)
  deriving DecidableEq

namespace Glob

/-- The ranges of a set. A hyphen makes a range only between two members. -/
def ranges : Text → List CharRange
  | low :: '-' :: high :: rest => ⟨low, high⟩ :: ranges rest
  | c :: rest => ⟨c, c⟩ :: ranges rest
  | [] => []

/-- The members of a set and what follows its closing bracket. A closing bracket in the first place is
a member. -/
def splitSet? : Text → Option (Text × Text)
  | [] => none
  | first :: rest => (Text.cut? "]" rest).map fun (members, rest) => (first :: members, rest)

/-- The members of a set without the empty ranges in front of them. -/
def dropEmptyRanges : Text → Text
  | low :: '-' :: high :: rest =>
    if high.toNat < low.toNat then dropEmptyRanges rest else low :: '-' :: high :: rest
  | members => members

/-- The set of some members. An exclamation mark that is left in front when empty ranges are dropped
negates the set as well; if it started a range, the hyphen and the end of that range stay. -/
def setOf (members : Text) : GlobPart :=
  match dropEmptyRanges members with
  | '!' :: '-' :: high :: rest => .charSet true (⟨'-', '-'⟩ :: ⟨high, high⟩ :: ranges rest)
  | '!' :: rest => .charSet true (ranges rest)
  | rest => .charSet false (ranges rest)

/-- The set at the start of a text that follows an opening bracket, and what follows it. -/
def charSet? (t : Text) : Option (GlobPart × Text) :=
  match t with
  | '!' :: rest => (splitSet? rest).map fun (members, rest) => (.charSet true (ranges members), rest)
  | _ => (splitSet? t).map fun (members, rest) => (setOf members, rest)

/-- The part for a character that needs no lookahead. -/
def plainPart (c : Char) : GlobPart :=
  if c == '*' then .anyRun else if c == '?' then .anyChar else .literal c

/-- The parts of a pattern; `covered` counts the characters that the last set still covers. -/
def partsFrom : Nat → Text → List GlobPart
  | _, [] => []
  | covered + 1, _ :: rest => partsFrom covered rest
  | 0, c :: rest =>
    match (if c == '[' then charSet? rest else none) with
    | some (part, after) => part :: partsFrom (rest.length - after.length) rest
    | none => plainPart c :: partsFrom 0 rest

def parts (pattern : Text) : List GlobPart := partsFrom 0 pattern

/-- Whether a part that stands for one character stands for this one. -/
def accepts : GlobPart → Char → Bool
  | .anyRun, _ => false
  | .anyChar, _ => true
  | .charSet negated ranges, c => ranges.any (·.holds c) != negated
  | .literal d, c => c == d

/-- A text and all its ends, down to the empty one. -/
def ends : Text → List Text
  | [] => [[]]
  | c :: rest => (c :: rest) :: ends rest

def partsMatch : List GlobPart → Text → Bool
  | [], t => t.isEmpty
  | .anyRun :: more, t => (ends t).any fun rest => partsMatch more rest
  | _ :: _, [] => false
  | part :: more, c :: rest => accepts part c && partsMatch more rest

def isMatch (pattern name : Text) : Bool := partsMatch (parts pattern) name

end Glob

end ComponentAudit
