import ComponentAudit.Text.Quoted

/-!
Command lines as lists of words: options, which may take a value, and operands, which are told by their
place. A long option may be shortened as long as it stays clear, and a value may follow in the same
word. Operands are matched in groups: the words up to the next option are given to as many operands as
they satisfy, and an operand that may be left out is settled with the group it could have stood in.
-/

namespace ComponentAudit

inductive ValueRule where
  | any
  | oneOf (choices : List Text)
  | integer

inductive OptionRole where
  | flag
  | value (rule : ValueRule)
  | help

structure OptionSpec where
  names : List Text
  role : OptionRole

structure OperandSpec where
  name : Text
  required : Bool

/-- The options and operands of a command. Operands that may be left out come last. -/
structure Grammar where
  options : List OptionSpec
  operands : List OperandSpec

inductive UsageError where
  | invalidChoice (argument value : Text) (choices : List Text)
  | invalidInteger (argument value : Text)
  | missingValue (argument : Text)
  | unwantedValue (argument value : Text)
  | ambiguous (option : Text) (candidates : List Text)
  | missingOperands (names : List Text)
  | unrecognized (words : List Text)

def UsageError.message : UsageError → Text
  | .invalidChoice argument value choices =>
    "argument " ++ argument ++ ": invalid choice: " ++ Text.quoted value ++ " (choose from " ++
      Text.join ", " (choices.map Text.quoted) ++ ")"
  | .invalidInteger argument value =>
    "argument " ++ argument ++ ": invalid int value: " ++ Text.quoted value
  | .missingValue argument => "argument " ++ argument ++ ": expected one argument"
  | .unwantedValue argument value =>
    "argument " ++ argument ++ ": ignored explicit argument " ++ Text.quoted value
  | .ambiguous option candidates =>
    "ambiguous option: " ++ option ++ " could match " ++ Text.join ", " candidates
  | .missingOperands names =>
    "the following arguments are required: " ++ Text.join ", " names
  | .unrecognized words => "unrecognized arguments: " ++ Text.join " " words

/-- Why a command line is not carried out. -/
inductive Stop where
  | help
  | wrong (error : UsageError)

namespace OptionSpec

def title (option : OptionSpec) : Text := Text.join "/" option.names

def key (option : OptionSpec) : Text := option.names.getLast?.getD []

end OptionSpec

inductive Word where
  /-- An option under one of its names, with the value that follows in the same word. -/
  | option (option : OptionSpec) (name : Text) (value : Option Text)
  /-- A word that looks like an option and is none. -/
  | unknown (text : Text)
  | operand (text : Text)
  /-- The mark behind which every word is an operand. -/
  | separator

namespace Word

/-- Whether a word is an option or looks like one. -/
def isOption : Word → Bool
  | .option .. | .unknown _ => true
  | _ => false

def isOperand : Word → Bool
  | .operand _ => true
  | _ => false

def isSeparator : Word → Bool
  | .separator => true
  | _ => false

end Word

def isNegativeNumber : Text → Bool
  | '-' :: rest =>
    match Text.cut? "." rest with
    | none => !rest.isEmpty && rest.all isDigit
    | some (whole, fraction) => whole.all isDigit && !fraction.isEmpty && fraction.all isDigit
  | _ => false

/-- Whether a text is an integer: digits with a sign, white space around it apart. -/
def integer? (t : Text) : Option Int :=
  let (negative, digits) := match Text.trim t with
    | '-' :: rest => (true, rest)
    | '+' :: rest => (false, rest)
    | rest => (false, rest)
  let groups := Text.splitOn '_' digits
  if groups.all fun group => !group.isEmpty && group.all isAsciiDigit then
    let size := (groups.flatten.foldl (fun n c => n * 10 + (c.toNat - 48)) 0 : Nat)
    some (if negative then -(size : Int) else size)
  else none

namespace Grammar

def named (grammar : Grammar) : List (Text × OptionSpec) :=
  grammar.options.flatMap fun option => option.names.map fun name => (name, option)

def option? (grammar : Grammar) (name : Text) : Option OptionSpec := grammar.named.lookup name

/-- Splits a word at its first equals sign. -/
def splitValue (word : Text) : Text × Option Text :=
  match Text.cut? "=" word with
  | none => (word, none)
  | some (name, value) => (name, some value)

/-- The options that a word may stand for if it is no name of one: those whose long name it starts, or
the one whose short name it starts with, the rest being the value. -/
def candidates (grammar : Grammar) (word : Text) : List (Text × OptionSpec × Option Text) :=
  match word with
  | '-' :: '-' :: _ =>
    let (start, value) := splitValue word
    (grammar.named.filter fun entry => start.isPrefixOf entry.1).map fun (name, option) =>
      (name, option, value)
  | _ =>
    grammar.named.filterMap fun (name, option) =>
      if name == word.take 2 then some (name, option, some (word.drop 2))
      else if word.isPrefixOf name then some (name, option, none)
      else none

/-- The option that a word holds with a value behind an equals sign. -/
def assigned? (grammar : Grammar) (word : Text) : Option Word :=
  match splitValue word with
  | (name, some value) => (grammar.option? name).map fun option => .option option name (some value)
  | _ => none

/-- What a word in front of the mark is. -/
def classify (grammar : Grammar) (word : Text) : Except Stop Word :=
  if word.head? != some '-' then .ok (.operand word)
  else
    match grammar.option? word with
    | some option => .ok (.option option word none)
    | none =>
      if word.length == 1 then .ok (.operand word)
      else
        match grammar.assigned? word with
        | some found => .ok found
        | none =>
          match grammar.candidates word with
          | [(name, option, value)] => .ok (.option option name value)
          | [] =>
            .ok (if isNegativeNumber word || word.contains ' ' then .operand word
              else .unknown word)
          | several => .error (.wrong (.ambiguous word (several.map (·.1))))

def classifyAll (grammar : Grammar) : List Text → Except Stop (List Word)
  | [] => .ok []
  | word :: rest =>
    if word == "--" then .ok (.separator :: rest.map .operand)
    else do
      let first ← grammar.classify word
      return first :: (← grammar.classifyAll rest)

end Grammar

/-- The values of options and operands, the latest first, and the words that fit nowhere. -/
structure Matched where
  values : List (Text × Text) := []
  extras : List Text := []
  /-- The operands that are still to come. -/
  pending : List OperandSpec := []

namespace Matched

def get? (matched : Matched) (name : Text) : Option Text := matched.values.lookup name

def has (matched : Matched) (name : Text) : Bool := (matched.get? name).isSome

def set (matched : Matched) (name value : Text) : Matched :=
  { matched with values := (name, value) :: matched.values }

def addExtras (matched : Matched) (words : List Text) : Matched :=
  { matched with extras := matched.extras ++ words }

/-- Keeps the value of an option, if it takes this one. -/
def setOption (matched : Matched) (option : OptionSpec) (rule : ValueRule) (value : Text) :
    Except Stop Matched :=
  match rule with
  | .any => .ok (matched.set option.key value)
  | .oneOf choices =>
    if choices.contains value then .ok (matched.set option.key value)
    else .error (.wrong (.invalidChoice option.title value choices))
  | .integer =>
    if (integer? value).isSome then .ok (matched.set option.key value)
    else .error (.wrong (.invalidInteger option.title value))

/-- The words that operands and marks stand for. -/
def texts (words : List Word) : List Text :=
  words.map fun word => match word with
    | .operand text | .unknown text => text
    | .option _ name _ => name
    | .separator => "--"

/-- Gives operands their words; the mark around a word is passed over. A word that looks like a second
mark leaves out an operand that may be left out. -/
def fill : List OperandSpec → List Word → Matched → Matched × List Word
  | [], words, matched => (matched, words)
  | operand :: more, words, matched =>
    match words.dropWhile Word.isSeparator with
    | .operand text :: rest =>
      let rest := rest.dropWhile Word.isSeparator
      let marked := words.head?.any Word.isSeparator
      if text == "--" && !marked && !operand.required then fill more rest matched
      else fill more rest (matched.set operand.name text)
    | rest => fill more rest matched

/-- Gives the words up to the next option to as many operands as they satisfy. -/
def takeOperands (matched : Matched) (words : List Word) : Matched × List Word :=
  let group := words.takeWhile (!·.isOption)
  let behind := words.drop group.length
  let supply := group.countP Word.isOperand
  let needed := matched.pending.countP (·.required)
  let count := if needed ≤ supply then matched.pending.length else supply
  let (filled, rest) := fill (matched.pending.take count) group matched
  ({ filled with pending := matched.pending.drop count }, rest ++ behind)

/-- Carries out an option. Behind a short flag, further short options may follow in the same word. -/
def takeOption (grammar : Grammar) :
    Nat → OptionSpec → Text → Option Text → List Word → Matched → Except Stop (Matched × List Word)
  | 0, _, _, _, rest, matched => .ok (matched, rest)
  | bound + 1, option, name, value, rest, matched =>
    match option.role, value with
    | .value rule, some value => do return (← matched.setOption option rule value, rest)
    | .value rule, none =>
      match rest with
      | .operand value :: rest => do return (← matched.setOption option rule value, rest)
      | _ => .error (.wrong (.missingValue option.title))
    | .help, none => .error .help
    | .flag, none => .ok (matched.set option.key [], rest)
    | role, some value =>
      match value with
      | [] => .error (.wrong (.unwantedValue option.title value))
      | letter :: tail =>
        if ("--" : Text).isPrefixOf name then
          .error (.wrong (.unwantedValue option.title value))
        else
          match grammar.option? ['-', letter] with
          | none => .error (.wrong (.unwantedValue option.title value))
          | some next =>
            match role with
            | .help => .error .help
            | _ =>
              takeOption grammar bound next ['-', letter]
                (if tail.isEmpty then none else some tail) rest (matched.set option.key [])

def run (grammar : Grammar) : Nat → List Word → Matched → Except Stop Matched
  | 0, _, matched => .ok matched
  | bound + 1, words, matched =>
    match words with
    | .option option name value :: rest => do
      let length := (value.map List.length).getD 0
      let (matched, rest) ← takeOption grammar (length + 1) option name value rest matched
      run grammar bound rest matched
    | .unknown text :: rest => run grammar bound rest (matched.addExtras [text])
    | _ =>
      let (filled, rest) := matched.takeOperands words
      if rest.length < words.length then run grammar bound rest filled
      else
        let group := rest.takeWhile (!·.isOption)
        let behind := rest.drop group.length
        if behind.isEmpty then .ok (filled.addExtras (texts group))
        else run grammar bound behind (filled.addExtras (texts group))

end Matched

namespace Grammar

/-- Matches a command line. Words that fit nowhere are kept; an operand that is missing is an error. -/
def read (grammar : Grammar) (words : List Text) : Except Stop Matched := do
  let words ← grammar.classifyAll words
  let matched ← Matched.run grammar (2 * words.length + 2) words { pending := grammar.operands }
  let missing := matched.pending.filter (·.required)
  if missing.isEmpty then return matched
  else .error (.wrong (.missingOperands (missing.map (·.name))))

end Grammar

end ComponentAudit
