import ComponentAudit.Yaml.Scalar
import ComponentAudit.Yaml.Token

/-!
A reader for the plainer part of YAML: blocks, flow collections, plain and quoted scalars, anchors. Block
scalars, tags and directives are refused, `<<` is a key like any other, and dates with a time are texts.
The program takes its reader as a parameter; this one stands in for it where the program is run.

A document is read from its tokens. An entry without a value holds null; a sequence under a key
need not be further in than the key. The reader counts down a bound on the nesting, which the number
of tokens supplies.
-/

namespace ComponentAudit.Yaml

/-- The tokens that are left, and the values with an anchor so far. -/
structure Reading where
  tokens : List Token
  anchors : List (Text × Yaml) := []

/-- A reader; none if the document is malformed. -/
abbrev Read := StateT Reading Option

namespace Read

def peek : Read (Option Token) := return (← get).tokens.head?

def skip : Read Unit := modify fun reading => { reading with tokens := reading.tokens.drop 1 }

def nextIs (tokens : List Token) : Read Bool := return (← peek).any tokens.contains

/-- Passes over the next token if it is the given one; with whether it was. -/
def accept (token : Token) : Read Bool := do
  if (← peek) == some token then skip; return true else return false

/-- Passes over the next token, which has to be the given one. -/
def expect (token : Token) : Read Unit := do if ← accept token then return () else failure

def anchor? : Read (Option Text) := do
  match ← peek with
  | some (.anchor name) => skip; return some name
  | _ => return none

/-- Keeps a value under its anchor; an anchor is used once. -/
def register (anchor : Option Text) (value : Yaml) : Read Yaml := do
  match anchor with
  | none => return value
  | some name =>
    if ((← get).anchors.lookup name).isSome then failure
    else
      modify fun reading => { reading with anchors := (name, value) :: reading.anchors }
      return value

/-- A node without content is null if it has an anchor, and else malformed. -/
def empty (anchor : Option Text) : Read Yaml :=
  if anchor.isNone then failure else register anchor .null

/-- An entry of a mapping; a collection cannot be its key. -/
def entry (key value : Yaml) : Read (Yaml × Yaml) := if key.isKey then return (key, value) else failure

end Read

open Read

mutual

/-- A node. Blocks are read only where `block` allows them, and a sequence without a block of its own
only where `bare` does. -/
def node : Nat → Bool → Bool → Read Yaml
  | 0, _, _ => failure
  | bound + 1, block, bare => do
    match ← peek with
    | some (.reference name) =>
      skip
      match (← get).anchors.lookup name with
      | some value => return value
      | none => failure
    | _ =>
      let anchor ← anchor?
      match ← peek with
      | some (.plain t) => skip; register anchor (ofPlain t)
      | some (.quoted t) => skip; register anchor (.str t)
      | some .flowSequenceStart => skip; register anchor (.seq (← flowItems bound true))
      | some .flowMappingStart => skip; register anchor (.map (← flowEntries bound true))
      | some .blockEntry =>
        if bare then register anchor (.seq (← bareItems bound)) else empty anchor
      | some .blockSequenceStart =>
        if block then skip; register anchor (.seq (← blockItems bound)) else empty anchor
      | some .blockMappingStart =>
        if block then skip; register anchor (.map (← blockEntries bound)) else empty anchor
      | _ => empty anchor

/-- A node, or null if one of the given tokens comes next. -/
def nodeUnless : Nat → List Token → Bool → Bool → Read Yaml
  | 0, _, _, _ => failure
  | bound + 1, ends, block, bare => do
    if ← nextIs ends then return .null else node bound block bare

def blockItems : Nat → Read (List Yaml)
  | 0 => failure
  | bound + 1 => do
    if ← accept .blockEntry then
      let item ← nodeUnless bound [.blockEntry, .blockEnd] true false
      return item :: (← blockItems bound)
    else
      expect .blockEnd
      return []

/-- The items of a sequence without a block of its own. -/
def bareItems : Nat → Read (List Yaml)
  | 0 => failure
  | bound + 1 => do
    if ← accept .blockEntry then
      let item ← nodeUnless bound [.blockEntry, .key, .value, .blockEnd] true false
      return item :: (← bareItems bound)
    else return []

def blockEntries : Nat → Read (List (Yaml × Yaml))
  | 0 => failure
  | bound + 1 => do
    if ← accept .key then
      let key ← nodeUnless bound [.key, .value, .blockEnd] true true
      let value ←
        if ← accept .value then nodeUnless bound [.key, .value, .blockEnd] true true
        else pure Yaml.null
      let first ← entry key value
      return first :: (← blockEntries bound)
    else
      expect .blockEnd
      return []

/-- The key and value of an entry of a flow collection that `close` ends. -/
def flowEntry : Nat → Token → Read (Yaml × Yaml)
  | 0, _ => failure
  | bound + 1, close => do
    let key ← nodeUnless bound [.value, .flowEntry, close] false false
    let value ←
      if ← accept .value then nodeUnless bound [.flowEntry, close] false false
      else pure Yaml.null
    entry key value

/-- The items of a flow sequence, up to its end. A single entry of a mapping may be an item. -/
def flowItems : Nat → Bool → Read (List Yaml)
  | 0, _ => failure
  | bound + 1, first => do
    if ← accept .flowSequenceEnd then return []
    else
      if !first then expect .flowEntry
      if ← accept .flowSequenceEnd then return []
      else if ← accept .key then
        let item ← flowEntry bound .flowSequenceEnd
        return .map [item] :: (← flowItems bound false)
      else
        let item ← node bound false false
        return item :: (← flowItems bound false)

/-- The entries of a flow mapping, up to its end. A node without a colon is a key without a value. -/
def flowEntries : Nat → Bool → Read (List (Yaml × Yaml))
  | 0, _ => failure
  | bound + 1, first => do
    if ← accept .flowMappingEnd then return []
    else
      if !first then expect .flowEntry
      if ← accept .flowMappingEnd then return []
      else
        let item ←
          if ← accept .key then flowEntry bound .flowMappingEnd
          else entry (← node bound false false) .null
        return item :: (← flowEntries bound false)

end

def skipDocumentEnds : Nat → Read Unit
  | 0 => return ()
  | bound + 1 => do if ← accept .documentEnd then skipDocumentEnds bound else return ()

/-- The only document; null if there is none. -/
def document (bound : Nat) : Read Yaml := do
  if (← peek) == none then return .null
  else
    let value ←
      if ← accept .documentStart then
        if (← peek) == none || (← nextIs [.documentStart, .documentEnd]) then pure Yaml.null
        else node bound true false
      else node bound true false
    skipDocumentEnds bound
    if (← peek) == none then return value else failure

def ofText? (t : Text) : Option Yaml := do
  let tokens ← tokens? t
  let (value, _) ← document (4 * tokens.length + 4) |>.run { tokens }
  return value

def read (t : Text) : Except YamlFailure Yaml :=
  match ofText? t with
  | some document => .ok document
  | none => .error (.malformed "malformed document")

end ComponentAudit.Yaml
