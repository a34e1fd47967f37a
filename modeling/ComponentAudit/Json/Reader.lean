import ComponentAudit.Json.Value

/-!
Reading JSON. Besides the standard's values the words `NaN`, `Infinity` and `-Infinity` are numbers.
The reader counts down a bound on the nesting, which the length of the text supplies.
-/

namespace ComponentAudit.Json

def isBlankChar (c : Char) : Bool := c == ' ' || c == '\t' || c == '\n' || c == '\r'

def skipBlank (t : Text) : Text := t.dropWhile isBlankChar

def hexValue? (c : Char) : Option Nat :=
  let n := c.toNat
  if 48 ≤ n && n ≤ 57 then some (n - 48)
  else if 97 ≤ n && n ≤ 102 then some (n - 87)
  else if 65 ≤ n && n ≤ 70 then some (n - 55)
  else none

/-- The unit that four hexadecimal digits stand for. -/
def unit? (a b c d : Char) : Option Nat := do
  return (((← hexValue? a) * 16 + (← hexValue? b)) * 16 + (← hexValue? c)) * 16 + (← hexValue? d)

/-- The character that stands for a unit without its partner. -/
def unitChar (n : Nat) : Char := if 0xd800 ≤ n && n ≤ 0xdfff then '\ufffd' else Char.ofNat n

/-- The character of an escape of one letter. -/
def letterEscape? (c : Char) : Option Char :=
  if c == '"' || c == '\\' || c == '/' then some c
  else if c == 'n' then some '\n'
  else if c == 'r' then some '\r'
  else if c == 't' then some '\t'
  else if c == 'f' then some (Char.ofNat 12)
  else if c == 'b' then some (Char.ofNat 8)
  else none

/-- Reads on inside a string up to its closing quote; `high` is a leading surrogate that waits for
its partner. -/
def stringFrom (high : Option Nat) : Text → Option (Text × Text)
  | [] => none
  | '\\' :: 'u' :: a :: b :: c :: d :: rest =>
    match unit? a b c d with
    | none => none
    | some n =>
      match high with
      | some h =>
        if 0xdc00 ≤ n && n ≤ 0xdfff then
          (stringFrom none rest).map fun (t, rest) =>
            (Char.ofNat (0x10000 + (h - 0xd800) * 1024 + (n - 0xdc00)) :: t, rest)
        else if 0xd800 ≤ n && n ≤ 0xdbff then
          (stringFrom (some n) rest).map fun (t, rest) => (unitChar h :: t, rest)
        else (stringFrom none rest).map fun (t, rest) => (unitChar h :: unitChar n :: t, rest)
      | none =>
        if 0xd800 ≤ n && n ≤ 0xdbff then stringFrom (some n) rest
        else (stringFrom none rest).map fun (t, rest) => (unitChar n :: t, rest)
  | '\\' :: e :: rest =>
    match letterEscape? e with
    | none => none
    | some c =>
      (stringFrom none rest).map fun (t, rest) =>
        ((high.map unitChar).toList ++ c :: t, rest)
  | c :: rest =>
    if c == '"' then some ((high.map unitChar).toList, rest)
    else if c.toNat < 32 || c == '\\' then none
    else
      (stringFrom none rest).map fun (t, rest) =>
        ((high.map unitChar).toList ++ c :: t, rest)

def digitsValue (digits : Text) : Nat :=
  digits.foldl (fun n c => n * 10 + (c.toNat - 48)) 0

def takeDigits (t : Text) : Text × Text := (t.takeWhile isAsciiDigit, t.dropWhile isAsciiDigit)

/-- An exponent with its letter, if one follows. -/
def exponent? : Text → Option (Int × Text)
  | e :: rest =>
    if e == 'e' || e == 'E' then
      let (sign, rest) := match rest with
        | '-' :: rest => (-1, rest)
        | '+' :: rest => (1, rest)
        | _ => ((1 : Int), rest)
      let (digits, rest) := takeDigits rest
      if digits.isEmpty then none else some (sign * (digitsValue digits : Int), rest)
    else none
  | [] => none

/-- A number without its sign. A leading zero stands alone. -/
def number? (sign : Int) (t : Text) : Option (Json × Text) :=
  let (whole, rest) := match t with
    | '0' :: rest => (['0'], rest)
    | _ => takeDigits t
  if whole.isEmpty then none
  else
    let (fraction, rest) := match rest with
      | '.' :: more =>
        let (digits, after) := takeDigits more
        if digits.isEmpty then ([], rest) else (digits, after)
      | _ => ([], rest)
    let mantissa := sign * (digitsValue (whole ++ fraction) : Int)
    match exponent? rest with
    | some (e, rest) => some (.decimal mantissa (e - fraction.length), rest)
    | none =>
      if fraction.isEmpty then some (.int mantissa, rest)
      else some (.decimal mantissa (-fraction.length), rest)

/-- The words of the format. -/
def word? (t : Text) : Option (Json × Text) :=
  [(("null" : Text), Json.null), ("true", .bool true), ("false", .bool false),
    ("NaN", .nonFinite), ("Infinity", .nonFinite), ("-Infinity", .nonFinite)].findSome?
    fun (word, value) => (Text.dropPrefix? word t).map fun rest => (value, rest)

mutual

/-- Reads one value, blanks in front of it apart. -/
def value? : Nat → Text → Option (Json × Text)
  | 0, _ => none
  | bound + 1, t =>
    match skipBlank t with
    | '"' :: rest => (stringFrom none rest).map fun (s, rest) => (.str s, rest)
    | '[' :: rest =>
      match skipBlank rest with
      | ']' :: rest => some (.arr [], rest)
      | _ => (items? bound rest).map fun (items, rest) => (.arr items, rest)
    | '{' :: rest =>
      match skipBlank rest with
      | '}' :: rest => some (.obj [], rest)
      | _ => (members? bound rest).map fun (members, rest) => (.obj members, rest)
    | t =>
      match word? t with
      | some found => some found
      | none =>
        match t with
        | '-' :: rest => number? (-1) rest
        | _ => number? 1 t

/-- Reads the items of an array up to its closing bracket. -/
def items? : Nat → Text → Option (List Json × Text)
  | 0, _ => none
  | bound + 1, t => do
    let (item, rest) ← value? bound t
    match skipBlank rest with
    | ']' :: rest => some ([item], rest)
    | ',' :: rest => (items? bound rest).map fun (items, rest) => (item :: items, rest)
    | _ => none

def members? : Nat → Text → Option (List (Text × Json) × Text)
  | 0, _ => none
  | bound + 1, t =>
    match skipBlank t with
    | '"' :: rest => do
      let (name, rest) ← stringFrom none rest
      match skipBlank rest with
      | ':' :: rest => do
        let (value, rest) ← value? bound rest
        match skipBlank rest with
        | '}' :: rest => some ([(name, value)], rest)
        | ',' :: rest =>
          (members? bound rest).map fun (members, rest) => ((name, value) :: members, rest)
        | _ => none
      | _ => none
    | _ => none

end

/-- The value that a whole text stands for. A byte-order mark in front is passed over. -/
def ofText? (t : Text) : Option Json :=
  let t := match t with
    | '\ufeff' :: rest => rest
    | _ => t
  match value? (t.length + 1) t with
  | some (value, rest) => if (skipBlank rest).isEmpty then some value else none
  | none => none

end ComponentAudit.Json
