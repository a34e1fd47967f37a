import ComponentAudit.Json.Writer
import ComponentAudit.Text.InvisibleTable

/-!
Texts between quotes as messages show them. Single quotes are used unless the text holds one and no
double quote. A backslash, the quote itself and every character that cannot be seen are escaped.
-/

namespace ComponentAudit.Text

/-- The last digits of a number in hexadecimal, as many as asked for. -/
def hexDigits (n : Nat) : Nat → Text
  | 0 => []
  | count + 1 => hexDigits (n / 16) count ++ [Json.hexDigit (n % 16)]

/-- Characters that cannot be seen: controls, separators other than the blank, marks that only steer
the layout, and code points without a character. -/
def isInvisible (c : Char) : Bool :=
  if c.toNat < 127 then c.toNat < 32
  else LetterTable.covers InvisibleTable.ranges c.toNat

def quotedChar (quote c : Char) : Text :=
  let n := c.toNat
  if c == quote || c == '\\' then ['\\', c]
  else if c == '\n' then ['\\', 'n']
  else if c == '\r' then ['\\', 'r']
  else if c == '\t' then ['\\', 't']
  else if !isInvisible c then [c]
  else if n < 0x100 then '\\' :: 'x' :: hexDigits n 2
  else if n < 0x10000 then '\\' :: 'u' :: hexDigits n 4
  else '\\' :: 'U' :: hexDigits n 8

def quoted (t : Text) : Text :=
  let quote := if t.contains '\'' && !t.contains '"' then '"' else '\''
  quote :: t.flatMap (quotedChar quote) ++ [quote]

end ComponentAudit.Text
