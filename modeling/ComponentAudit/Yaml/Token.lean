import ComponentAudit.Json.Reader
import ComponentAudit.Yaml.Value

/-!
The tokens of a YAML document. Blocks are told by indentation: a column further in than the current
block opens a block, and a column further out closes blocks.

Whether a token starts a mapping entry is known only when the colon behind it is read. So the lexer
leaves a numbered slot in front of every token that may be a key, and `Lexer.finish` fills the slots
that turned out to be keys and drops the others.

Line breaks have been normalised: a carriage return does not occur. Tags, directives and block scalars
are not read.
-/

namespace ComponentAudit.Yaml

inductive Token where
  | documentStart
  | documentEnd
  | blockSequenceStart
  | blockMappingStart
  | blockEnd
  | flowSequenceStart
  | flowSequenceEnd
  | flowMappingStart
  | flowMappingEnd
  | blockEntry
  | flowEntry
  | key
  | value
  | reference (name : Text)
  | anchor (name : Text)
  | plain (text : Text)
  | quoted (text : Text)
  deriving DecidableEq

def isBreak (c : Char) : Bool := c == '\n' || c == '\x85' || c == '\u2028' || c == '\u2029'

/-- A line break as it is kept: the next-line character becomes a line feed. -/
def keptBreak (c : Char) : Char := if c == '\x85' then '\n' else c

/-- Whether the end, a blank or a line break comes next. -/
def atGap (t : Text) : Bool := t.head?.all fun c => c == ' ' || c == '\t' || isBreak c

def isPrintable (c : Char) : Bool :=
  let n := c.toNat
  n == 9 || n == 10 || n == 13 || (0x20 ≤ n && n ≤ 0x7e) || n == 0x85 ||
    (0xa0 ≤ n && n ≤ 0xd7ff) || (0xe000 ≤ n && n ≤ 0xfffd) || 0x10000 ≤ n

/-- Whether a line opens with the mark between documents. -/
def atDocumentMark (t : Text) : Bool :=
  (("---" : Text).isPrefixOf t || ("..." : Text).isPrefixOf t) && atGap (t.drop 3)

/-- What a run of line breaks is folded to: a single one to a blank, and more to all but the first. -/
def foldBreaks : List Char → Text
  | [] => []
  | first :: more =>
    (if first != '\n' then [first] else if more.isEmpty then [' '] else []) ++ more

/-! ## Quoted scalars -/

def letterEscape? (c : Char) : Option Char :=
  [('0', '\x00'), ('a', '\x07'), ('b', '\x08'), ('t', '\t'), ('\t', '\t'), ('n', '\n'),
    ('v', '\x0b'), ('f', '\x0c'), ('r', '\r'), ('e', '\x1b'), (' ', ' '), ('"', '"'),
    ('\\', '\\'), ('/', '/'), ('N', '\x85'), ('_', '\xa0'), ('L', '\u2028'), ('P', '\u2029')].lookup c

def codeLength? (c : Char) : Option Nat :=
  if c == 'x' then some 2 else if c == 'u' then some 4 else if c == 'U' then some 8 else none

/-- The line breaks at the start of a text, blanks between them apart, and the rest; none if a document
mark stands at the start of a line. -/
def quotedBreaks? : Nat → Text → Option (List Char × Text)
  | 0, _ => none
  | bound + 1, t =>
    if atDocumentMark t then none
    else
      match t.dropWhile (fun c => c == ' ' || c == '\t') with
      | c :: rest =>
        if isBreak c then
          (quotedBreaks? bound rest).map fun (more, rest) => (keptBreak c :: more, rest)
        else some ([], c :: rest)
      | [] => some ([], [])

/-- The escape behind a backslash: the characters that it stands for, and the rest. -/
def escape? : Text → Option (Text × Text)
  | [] => none
  | c :: rest =>
    match letterEscape? c, codeLength? c with
    | some d, _ => some ([d], rest)
    | none, some n =>
      let digits := rest.take n
      if digits.length == n then
        (digits.foldlM (fun code d => (Json.hexValue? d).map (code * 16 + ·)) 0).map
          fun code => ([Char.ofNat code], rest.drop n)
      else none
    | none, none => if isBreak c then quotedBreaks? (rest.length + 1) rest else none

def quotedFrom (double : Bool) : Nat → Text → Option (Text × Text)
  | 0, _ => none
  | _, [] => none
  | bound + 1, c :: rest =>
    let go := fun (read : Text) (rest : Text) =>
      (quotedFrom double bound rest).map fun (more, rest) => (read ++ more, rest)
    if c == ' ' || c == '\t' then
      let blanks := (c :: rest).takeWhile fun c => c == ' ' || c == '\t'
      let behind := (c :: rest).drop blanks.length
      if behind.head?.any isBreak then go [] behind else go blanks behind
    else if isBreak c then do
      let (more, rest) ← quotedBreaks? (rest.length + 1) rest
      go (foldBreaks (keptBreak c :: more)) rest
    else if !double && c == '\'' then
      match rest with
      | '\'' :: rest => go ['\''] rest
      | _ => some ([], rest)
    else if double && c == '"' then some ([], rest)
    else if double && c == '\\' then do
      let (read, rest) ← escape? rest
      go read rest
    else go [c] rest

/-! ## The lexer -/

/-- A place where a key may start. -/
structure KeyPlace where
  /-- The number of the slot in front of it. -/
  slot : Nat
  /-- Whether nothing but a key may stand there. -/
  required : Bool
  index : Nat
  line : Nat
  column : Nat

/-- An item of the output: a token, or a slot that may become a key. -/
inductive Item where
  | token (token : Token)
  | slot (number : Nat)

structure Lexer where
  rest : Text
  index : Nat := 0
  line : Nat := 0
  column : Nat := 0
  /-- The number of open flow collections. -/
  flow : Nat := 0
  /-- The columns of the open blocks, the innermost first. -/
  indents : List Nat := []
  /-- Whether a key may start here. -/
  allowKey : Bool := true
  /-- The places where a key may have started, by the number of open flow collections. -/
  places : List (Nat × KeyPlace) := []
  /-- The number of slots so far. -/
  slots : Nat := 0
  /-- The slots that turned out to be keys; true if the key opens a block. -/
  keys : List (Nat × Bool) := []
  /-- The output, the last item first. -/
  items : List Item := []

namespace Lexer

def inFlow (lexer : Lexer) : Bool := lexer.flow != 0

/-- The column of the innermost block; a document without one is at minus one. -/
def indent (lexer : Lexer) : Int := (lexer.indents.head?.map fun n => (n : Int)).getD (-1)

/-- Moves over one character. A byte-order mark takes no column. -/
def step (lexer : Lexer) : Lexer :=
  match lexer.rest with
  | [] => lexer
  | c :: rest =>
    let moved := { lexer with rest, index := lexer.index + 1 }
    if isBreak c then { moved with line := lexer.line + 1, column := 0 }
    else if c == '\ufeff' then moved
    else { moved with column := lexer.column + 1 }

def advance : Nat → Lexer → Lexer
  | 0, lexer => lexer
  | n + 1, lexer => advance n lexer.step

def moveTo (lexer : Lexer) (rest : Text) : Lexer :=
  advance (lexer.rest.length - rest.length) lexer

def push (lexer : Lexer) (token : Token) : Lexer :=
  { lexer with items := .token token :: lexer.items }

def place? (lexer : Lexer) : Option KeyPlace := lexer.places.lookup lexer.flow

def withoutPlace (lexer : Lexer) : Lexer :=
  { lexer with places := lexer.places.filter (·.1 != lexer.flow) }

/-- Gives up the place on the current level; none if a key had to stand there. -/
def dropPlace? (lexer : Lexer) : Option Lexer :=
  if lexer.place?.any (·.required) then none else some lexer.withoutPlace

/-- Notes that a key may start here, if one may. -/
def savePlace? (lexer : Lexer) : Option Lexer :=
  if lexer.allowKey then do
    let lexer ← lexer.dropPlace?
    let required := !lexer.inFlow && lexer.indent == lexer.column
    let place : KeyPlace := ⟨lexer.slots, required, lexer.index, lexer.line, lexer.column⟩
    return { lexer with
      places := (lexer.flow, place) :: lexer.places, slots := lexer.slots + 1
      items := .slot lexer.slots :: lexer.items }
  else some lexer

/-- Whether a key that started at a place can no longer be one: it is on an earlier line, or longer
than 1024 characters. -/
def isStale (lexer : Lexer) (place : KeyPlace) : Bool :=
  place.line != lexer.line || 1024 < lexer.index - place.index

/-- Gives up the places that are stale; none if a key had to stand at one of them. -/
def dropStale? (lexer : Lexer) : Option Lexer :=
  let (stale, fresh) := lexer.places.partition fun entry => lexer.isStale entry.2
  if stale.any (·.2.required) then none else some { lexer with places := fresh }

/-- Closes the blocks that are further in than a column. -/
def unwind (lexer : Lexer) (column : Int) : Lexer :=
  if lexer.inFlow then lexer
  else
    let closed := lexer.indents.takeWhile fun (n : Nat) => column < (n : Int)
    { lexer with
      indents := lexer.indents.drop closed.length
      items := closed.map (fun _ => Item.token .blockEnd) ++ lexer.items }

/-- Opens a block at a column, if it is further in than the current one; with whether it did. -/
def openBlock (lexer : Lexer) (column : Nat) : Lexer × Bool :=
  if lexer.indent < column then ({ lexer with indents := column :: lexer.indents }, true)
  else (lexer, false)

/-- Moves over blanks, comments and line breaks. Outside flow collections, a key may start on a new
line. -/
def skipGap : Nat → Lexer → Lexer
  | 0, lexer => lexer
  | bound + 1, lexer =>
    let lexer := lexer.moveTo (lexer.rest.dropWhile (· == ' '))
    let lexer :=
      if lexer.rest.head? == some '#' then lexer.moveTo (lexer.rest.dropWhile (!isBreak ·))
      else lexer
    if lexer.rest.head?.any isBreak then
      skipGap bound { lexer.step with allowKey := lexer.allowKey || !lexer.inFlow }
    else lexer

/-- The characters of a plain scalar up to a blank, a line break, a colon that ends a key or, inside a
flow collection, one of its signs. -/
def plainRun (inFlow : Bool) : Text → Text
  | [] => []
  | c :: rest =>
    let isSign := fun d => d == ',' || d == '[' || d == ']' || d == '{' || d == '}'
    if c == ' ' || c == '\t' || isBreak c then []
    else if c == ':' && (atGap rest || (inFlow && rest.head?.any isSign)) then []
    else if inFlow && (isSign c || c == '?') then []
    else c :: plainRun inFlow rest

/-- Moves over the blanks and line breaks inside a plain scalar, collecting the breaks; true if a
document mark stands at the start of a line. -/
def plainBreaks : Nat → Lexer → List Char × Bool × Lexer
  | 0, lexer => ([], true, lexer)
  | bound + 1, lexer =>
    let lexer := lexer.moveTo (lexer.rest.dropWhile (· == ' '))
    match lexer.rest with
    | c :: _ =>
      if isBreak c then
        let lexer := lexer.step
        if atDocumentMark lexer.rest then ([], true, lexer)
        else
          let (more, stopped, lexer) := plainBreaks bound lexer
          (keptBreak c :: more, stopped, lexer)
      else ([], false, lexer)
    | [] => ([], false, lexer)

/-- Moves over the gap behind a run of a plain scalar. The gap's text is empty if the scalar ends. -/
def plainGap (lexer : Lexer) : Text × Lexer :=
  let blanks := lexer.rest.takeWhile (· == ' ')
  let behind := lexer.moveTo (lexer.rest.drop blanks.length)
  if behind.rest.head?.any isBreak then
    let (breaks, stopped, after) := plainBreaks (behind.rest.length + 1) behind
    (if stopped then [] else foldBreaks breaks, { after with allowKey := true })
  else (blanks, behind)

/-- Reads on in a plain scalar; `gap` stands between what was read and what follows. A line that is not
further in than the block ends the scalar. -/
def plainFrom : Nat → Text → Lexer → Text × Lexer
  | 0, _, lexer => ([], lexer)
  | bound + 1, gap, lexer =>
    let run := plainRun lexer.inFlow lexer.rest
    if run.isEmpty || lexer.rest.head? == some '#' then ([], lexer)
    else
      let (nextGap, after) :=
        plainGap { lexer.moveTo (lexer.rest.drop run.length) with allowKey := false }
      if nextGap.isEmpty || (!after.inFlow && (after.column : Int) ≤ after.indent) then
        (gap ++ run, after)
      else
        let (more, after) := plainFrom bound nextGap after
        (gap ++ run ++ more, after)

def readPlain? (lexer : Lexer) : Option Lexer := do
  let lexer ← lexer.savePlace?
  let (text, lexer) := plainFrom (lexer.rest.length + 1) [] { lexer with allowKey := false }
  return lexer.push (.plain text)

def readQuoted? (lexer : Lexer) (double : Bool) : Option Lexer := do
  let lexer ← lexer.savePlace?
  let inside := lexer.rest.drop 1
  let (text, rest) ← quotedFrom double (inside.length + 1) inside
  return { lexer.moveTo rest with allowKey := false }.push (.quoted text)

def isAnchorChar (c : Char) : Bool := isAsciiLetter c || isAsciiDigit c || c == '-' || c == '_'

def readAnchor? (lexer : Lexer) (token : Text → Token) : Option Lexer := do
  let lexer ← lexer.savePlace?
  let behind := lexer.rest.drop 1
  let name := behind.takeWhile isAnchorChar
  let rest := behind.drop name.length
  let ended := atGap rest ||
    rest.head?.any fun c => ("?:,]\x7d%@`" : Text).contains c
  if name.isEmpty || !ended then none
  else return { lexer.moveTo rest with allowKey := false }.push (token name)

def openFlow? (lexer : Lexer) (token : Token) : Option Lexer := do
  let lexer ← lexer.savePlace?
  return { lexer.step with flow := lexer.flow + 1, allowKey := true }.push token

/-- The closing sign of a flow collection; none if none is open. -/
def closeFlow? (lexer : Lexer) (token : Token) : Option Lexer := do
  let lexer ← lexer.dropPlace?
  if lexer.flow == 0 then none
  else return { lexer.step with flow := lexer.flow - 1, allowKey := false }.push token

def readFlowEntry? (lexer : Lexer) : Option Lexer := do
  let lexer ← lexer.dropPlace?
  return { lexer.step with allowKey := true }.push .flowEntry

/-- The hyphen of a sequence entry; none where a block cannot start. -/
def readBlockEntry? (lexer : Lexer) : Option Lexer := do
  if lexer.inFlow || !lexer.allowKey then none
  else
    let (lexer, opened) := lexer.openBlock lexer.column
    let lexer := if opened then lexer.push .blockSequenceStart else lexer
    let lexer ← lexer.dropPlace?
    return { lexer.step with allowKey := true }.push .blockEntry

/-- The question mark of a key; none where a block cannot start. -/
def readKey? (lexer : Lexer) : Option Lexer := do
  if !lexer.inFlow && !lexer.allowKey then none
  else
    let (lexer, opened) :=
      if lexer.inFlow then (lexer, false) else lexer.openBlock lexer.column
    let lexer := if opened then lexer.push .blockMappingStart else lexer
    let lexer ← lexer.dropPlace?
    return { lexer.step with allowKey := !lexer.inFlow }.push .key

/-- The colon of a value. It makes a key of what started at the saved place. -/
def readValue? (lexer : Lexer) : Option Lexer := do
  match lexer.place? with
  | some place =>
    let lexer := lexer.withoutPlace
    let (lexer, opened) :=
      if lexer.inFlow then (lexer, false) else lexer.openBlock place.column
    return { lexer.step with
      keys := (place.slot, opened) :: lexer.keys, allowKey := false }.push .value
  | none =>
    if lexer.inFlow then return { lexer.step with allowKey := false }.push .value
    else if !lexer.allowKey then none
    else
      let (lexer, opened) := lexer.openBlock lexer.column
      let lexer := if opened then lexer.push .blockMappingStart else lexer
      return { lexer.step with allowKey := true }.push .value

def readDocumentMark? (lexer : Lexer) (token : Token) : Option Lexer := do
  let lexer ← (lexer.unwind (-1)).dropPlace?
  return { advance 3 lexer with allowKey := false }.push token

def opensPlain (inFlow : Bool) (c : Char) (rest : Text) : Bool :=
  !(isBreak c || ("\t -?:,[]\x7b\x7d#&*!|>'\"%@`" : Text).contains c) ||
    (!atGap rest && (c == '-' || (!inFlow && (c == '?' || c == ':'))))

/-- The token that starts with `c`, which `rest` follows. -/
def readToken? (lexer : Lexer) (c : Char) (rest : Text) : Option Lexer :=
  if lexer.column == 0 && atDocumentMark lexer.rest then
    lexer.readDocumentMark? (if c == '-' then .documentStart else .documentEnd)
  else if c == '[' then lexer.openFlow? .flowSequenceStart
  else if c == '{' then lexer.openFlow? .flowMappingStart
  else if c == ']' then lexer.closeFlow? .flowSequenceEnd
  else if c == '}' then lexer.closeFlow? .flowMappingEnd
  else if c == ',' then lexer.readFlowEntry?
  else if c == '-' && atGap rest then lexer.readBlockEntry?
  else if c == '?' && (lexer.inFlow || atGap rest) then lexer.readKey?
  else if c == ':' && (lexer.inFlow || atGap rest) then lexer.readValue?
  else if c == '*' then lexer.readAnchor? .reference
  else if c == '&' then lexer.readAnchor? .anchor
  else if c == '\'' then lexer.readQuoted? false
  else if c == '"' then lexer.readQuoted? true
  else if opensPlain lexer.inFlow c rest then lexer.readPlain?
  else none

def fill (keys : List (Nat × Bool)) : Item → List Token
  | .token token => [token]
  | .slot number =>
    match keys.lookup number with
    | some true => [.blockMappingStart, .key]
    | some false => [.key]
    | none => []

/-- Closes what is open at the end of the text, and gives the tokens in order. -/
def finish? (lexer : Lexer) : Option (List Token) := do
  let lexer ← (lexer.unwind (-1)).dropPlace?
  return lexer.items.reverse.flatMap (fill lexer.keys)

def run : Nat → Lexer → Option (List Token)
  | 0, _ => none
  | bound + 1, lexer => do
    let lexer ← (skipGap (lexer.rest.length + 1) lexer).dropStale?
    match lexer.rest with
    | [] => lexer.finish?
    | c :: rest => run bound (← (lexer.unwind lexer.column).readToken? c rest)

end Lexer

def tokens? (t : Text) : Option (List Token) :=
  if t.all isPrintable then
    let start : Lexer := { rest := t }
    let start := if t.head? == some '\ufeff' then start.step else start
    Lexer.run (t.length + 1) start
  else none

end ComponentAudit.Yaml
