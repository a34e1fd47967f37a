import ComponentAudit.Style.Sheet

/-!
Selectors: splitting a list at its commas, telling the kinds apart, unwrapping `:global`, and the
weight of a selector in the cascade.
-/

namespace ComponentAudit

/-- What a selector selects by. -/
inductive SelectorKind where
  | cssClass
  | id
  | element
  | attribute
  | descendant
  deriving DecidableEq

def SelectorKind.label : SelectorKind → Text
  | .cssClass => "class"
  | .id => "id"
  | .element => "element"
  | .attribute => "attribute"
  | .descendant => "descendant"

/-- Why a selector counts as used without a look at the markup. -/
inductive AutoUse where
  | descendant
  | attribute
  | global
  deriving DecidableEq

def AutoUse.label : AutoUse → Text
  | .descendant => "descendant"
  | .attribute => "attribute"
  | .global => "global"

/-- The note that stands for the place of use. -/
def AutoUse.context (use : AutoUse) : Text := use.label ++ " selector auto-detected as used"

structure Classified where
  kind : SelectorKind
  name : Text
  autoUse : Option AutoUse
  deriving DecidableEq

namespace Selector

/-- Cuts a text at the commas outside round and square brackets. A closing bracket without partner
is passed over. -/
def splitCommas (depth : Nat) : Text → List Text
  | [] => [[]]
  | c :: rest =>
    if c == '(' || c == '[' then Text.consHead c (splitCommas (depth + 1) rest)
    else if c == ')' || c == ']' then Text.consHead c (splitCommas (depth - 1) rest)
    else if c == ',' && depth == 0 then [] :: splitCommas 0 rest
    else Text.consHead c (splitCommas depth rest)

/-- The depth of brackets at the end of a text. -/
def bracketDepth (depth : Nat) : Text → Nat
  | [] => depth
  | c :: rest =>
    if c == '(' || c == '[' then bracketDepth (depth + 1) rest
    else if c == ')' || c == ']' then bracketDepth (depth - 1) rest
    else bracketDepth depth rest

/-- Each piece with the offset at which it starts, one character lying between neighbours. -/
def withOffsets (offset : Nat) : List Text → List (Text × Nat)
  | [] => []
  | piece :: pieces => (piece, offset) :: withOffsets (offset + piece.length + 1) pieces

/-- The pieces of a list that a comma outside brackets ends. The end of the text counts as a comma,
so a list that ends inside a bracket loses its last piece. -/
def closedPieces (t : Text) : List (Text × Nat) :=
  let pieces := withOffsets 0 (splitCommas 0 t)
  if bracketDepth 0 t == 0 then pieces else pieces.dropLast

/-- The selectors of a list, trimmed, with their offsets. Blank ones are left out. -/
def split (t : Text) : List (Text × Nat) :=
  (closedPieces t).filterMap fun (piece, offset) =>
    let selector := Text.trim piece
    if selector.isEmpty then none
    else some (selector, offset + (piece.takeWhile isSpace).length)

def isNameStop (c : Char) : Bool := (" :>+~[,(" : Text).contains c

/-- The leading name of a selector, without the mark of a class or an id. -/
def leadingName (selector : Text) : Text :=
  let unmarked := match selector with
    | c :: rest => if c == '.' || c == '#' then rest else selector
    | [] => []
  unmarked.takeWhile (!isNameStop ·)

def alwaysPresent : List Text := ["html", "body", "*", ":root"]

/-- Classifies a selector without `:global`. One with a blank and no combinator is named by its last
word; if it has no word, it cannot be classified. -/
def classifyLocal? (selector : Text) : Option Classified :=
  if selector.contains ' ' && !selector.any (fun c => c == ':' || c == '>' || c == '+' || c == '~')
  then (Text.words selector).getLast?.map fun last =>
    ⟨.descendant, leadingName last, some .descendant⟩
  else if selector.head? == some '.' then some ⟨.cssClass, leadingName selector, none⟩
  else if selector.head? == some '#' then some ⟨.id, leadingName selector, none⟩
  else if selector.contains '[' then
    let head := selector.takeWhile (· != '[')
    let name :=
      if head.isEmpty then
        (selector.drop 1).takeWhile fun c => !(("=~|^$*]" : Text).contains c || isSpace c)
      else leadingName head
    some ⟨.attribute, name, some .attribute⟩
  else
    let leading := leadingName selector
    let name := if leading.isEmpty then selector else leading
    some ⟨.element, name,
      if alwaysPresent.contains name || alwaysPresent.contains selector then some .global else none⟩

/-- The inside of a selector wrapped in `:global(…)` as a whole, on one line. -/
def globalBody? (selector : Text) : Option Text := do
  let inner ← Text.dropPrefix? ":global(" selector
  let inner := Text.trimRight inner
  if inner.getLast? == some ')' && !inner.dropLast.contains '\n' then
    some (Text.trim inner.dropLast)
  else none

/-- One step of unwrapping a selector that mentions `:global`: the inside of a wrapper, or else what
stands in front of the mention, or `*` if that is nothing. -/
def unwrapStep (selector : Text) : Text :=
  match globalBody? selector with
  | some inner => inner
  | none =>
    let front := Text.trim (Text.upTo selector ":global")
    if front.isEmpty then "*" else front

theorem length_unwrapStep_lt {selector : Text} (h : Text.mentions selector ":global" = true) :
    (unwrapStep selector).length < selector.length := by
  obtain ⟨⟨head, tail⟩, hcut⟩ := Option.isSome_iff_exists.mp h
  have hlen := congrArg List.length (Text.eq_append_of_cut? hcut)
  simp only [List.length_append] at hlen
  have hword : (":global" : Text).length = 7 := by decide
  unfold unwrapStep
  split
  · rename_i inner hinner
    unfold globalBody? at hinner
    simp only [Option.bind_eq_bind, Option.bind_eq_some_iff] at hinner
    obtain ⟨body, hbody, hinner⟩ := hinner
    have hsel := congrArg List.length (Text.eq_append_of_dropPrefix? hbody)
    simp only [List.length_append] at hsel
    have hopen : (":global(" : Text).length = 8 := by decide
    split at hinner
    · simp only [Option.some.injEq] at hinner
      have h1 := Text.length_trim_le (Text.trimRight body).dropLast
      have h2 := Text.length_dropWhile_le isSpace body.reverse
      have h3 : (Text.trimRight body).length ≤ body.length := by
        simp only [Text.trimRight, List.length_reverse] at h2 ⊢
        exact h2
      simp only [List.length_dropLast] at h1
      rw [← hinner]
      omega
    · exact absurd hinner (by simp)
  · have htrim := Text.length_trim_le head
    have hfront : Text.upTo selector ":global" = head := by simp only [Text.upTo, hcut, Option.map_some, Option.getD_some]
    simp only [hfront]
    split
    · have : ("*" : Text).length = 1 := by decide
      omega
    · omega

/-- Unwraps a selector until it no longer mentions `:global`. -/
def unwrap (selector : Text) : Text :=
  if _h : Text.mentions selector ":global" = true then unwrap (unwrapStep selector) else selector
termination_by selector.length
decreasing_by exact length_unwrapStep_lt _h

/-- Classifies a selector. One that mentions `:global` is classified by what it wraps and counts as
used. -/
def classify? (selector : Text) : Option Classified :=
  if Text.mentions selector ":global" then
    (classifyLocal? (unwrap selector)).map fun found => { found with autoUse := some .global }
  else classifyLocal? selector

/-- The classification of a selector that is not white space throughout; that one always has a
classification. -/
def classify (selector : Text) : Classified :=
  (classify? selector).getD ⟨.descendant, [], some .descendant⟩

/-- Characters between the compound selectors of a complex one. -/
def isCombinator (c : Char) : Bool := isSpace c || c == '>' || c == '+' || c == '~'

/-- The number of compound selectors that open with a letter; `boundary` says that the last character
was a combinator or there was none. -/
def elementCount (boundary : Bool) : Text → Nat
  | [] => 0
  | c :: rest =>
    (if boundary && isLetter c then 1 else 0) + elementCount (isCombinator c) rest

/-- The cascade weight: a hundred for each id, ten for each class, attribute or pseudo-class, one for
each element. -/
def specificity (selector : Text) : Nat :=
  let qualifiers := selector.count '.' + selector.count '[' + selector.count ':'
  selector.count '#' * 100 + qualifiers * 10 + elementCount true selector

end Selector

end ComponentAudit
