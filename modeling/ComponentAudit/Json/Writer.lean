import ComponentAudit.Json.Value

/-!
JSON text: two blanks for each level, one member or item to a line, empty containers closed at once.
The text is ASCII; every other character is written as one or two UTF-16 units in hexadecimal.
-/

namespace ComponentAudit.Json

def hexDigit (n : Nat) : Char := if n < 10 then Char.ofNat (48 + n) else Char.ofNat (87 + n)

def escapeUnit (n : Nat) : Text :=
  ['\\', 'u', hexDigit (n / 4096 % 16), hexDigit (n / 256 % 16), hexDigit (n / 16 % 16),
    hexDigit (n % 16)]

def escapeChar (c : Char) : Text :=
  let n := c.toNat
  if c == '"' then ['\\', '"']
  else if c == '\\' then ['\\', '\\']
  else if c == '\n' then ['\\', 'n']
  else if c == '\r' then ['\\', 'r']
  else if c == '\t' then ['\\', 't']
  else if n == 12 then ['\\', 'f']
  else if n == 8 then ['\\', 'b']
  else if 32 ≤ n && n ≤ 126 then [c]
  else if n < 0x10000 then escapeUnit n
  else escapeUnit (0xd800 + (n - 0x10000) / 1024) ++ escapeUnit (0xdc00 + (n - 0x10000) % 1024)

def quote (t : Text) : Text := '"' :: t.flatMap escapeChar ++ ['"']

/-- The start of a line at a level. -/
def newline (level : Nat) : Text := '\n' :: List.replicate (2 * level) ' '

/-- A decimal fraction; its digits, its exponent. -/
def decimalText (mantissa exponent : Int) : Text := Text.ofInt mantissa ++ "e" ++ Text.ofInt exponent

mutual

/-- The text of a value whose first line stands at a level. -/
def render (level : Nat) : Json → Text
  | .null => "null"
  | .bool true => "true"
  | .bool false => "false"
  | .int n => Text.ofInt n
  | .decimal m e => decimalText m e
  | .nonFinite => "NaN"
  | .str t => quote t
  | .arr [] => "[]"
  | .arr (item :: items) =>
    '[' :: newline (level + 1) ++ render (level + 1) item ++ renderItems (level + 1) items ++
      newline level ++ [']']
  | .obj [] => ['{', '}']
  | .obj ((name, value) :: members) =>
    '{' :: newline (level + 1) ++ quote name ++ ": " ++ render (level + 1) value ++
      renderMembers (level + 1) members ++ newline level ++ ['}']

/-- The items behind the first, each on a new line. -/
def renderItems (level : Nat) : List Json → Text
  | [] => []
  | item :: items => ',' :: newline level ++ render level item ++ renderItems level items

def renderMembers (level : Nat) : List (Text × Json) → Text
  | [] => []
  | (name, value) :: members =>
    ',' :: newline level ++ quote name ++ ": " ++ render level value ++ renderMembers level members

end

def toText (value : Json) : Text := render 0 value

end ComponentAudit.Json
