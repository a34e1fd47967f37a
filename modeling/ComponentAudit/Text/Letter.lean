import ComponentAudit.Text.CaseTable

/-!
Character classes: white space, letters, digits, and the characters of words and identifiers. ASCII
is decided here, everything else by the tables.
-/

namespace ComponentAudit

/-- White space: the ASCII blanks and separators `\t` to `\r` and U+001C to U+0020, the next-line
and no-break characters, and the space separators beyond. -/
def isSpace (c : Char) : Bool :=
  let n := c.toNat
  (9 ≤ n && n ≤ 13) || (28 ≤ n && n ≤ 32) || n == 0x85 || n == 0xa0 || n == 0x1680 ||
    (0x2000 ≤ n && n ≤ 0x200a) || n == 0x2028 || n == 0x2029 || n == 0x202f || n == 0x205f ||
    n == 0x3000

def isAsciiLetter (c : Char) : Bool :=
  (65 ≤ c.toNat && c.toNat ≤ 90) || (97 ≤ c.toNat && c.toNat ≤ 122)

def isAsciiCapital (c : Char) : Bool := 65 ≤ c.toNat && c.toNat ≤ 90

def isAsciiDigit (c : Char) : Bool := 48 ≤ c.toNat && c.toNat ≤ 57

def isLetter (c : Char) : Bool :=
  if c.toNat < 128 then isAsciiLetter c else LetterTable.covers LetterTable.letters c.toNat

/-- Characters with a digit value. -/
def isDigit (c : Char) : Bool :=
  if c.toNat < 128 then isAsciiDigit c else LetterTable.covers LetterTable.digits c.toNat

def isAlphanumeric (c : Char) : Bool :=
  if c.toNat < 128 then isAsciiLetter c || isAsciiDigit c
  else LetterTable.covers LetterTable.letters c.toNat ||
    LetterTable.covers LetterTable.numerals c.toNat

/-- Characters of a word: letters, numerals and `_`. -/
def isWordChar (c : Char) : Bool := isAlphanumeric c || c == '_'

def isIdentChar (c : Char) : Bool := isAlphanumeric c || c == '_' || c == '$'

def isIdentHead (c : Char) : Bool := isAsciiLetter c || c == '_' || c == '$'

/-- Characters that end a line: line feed, carriage return and the vertical separators. -/
def isLineBreak (c : Char) : Bool :=
  let n := c.toNat
  (10 ≤ n && n ≤ 13) || (28 ≤ n && n ≤ 30) || n == 0x85 || n == 0x2028 || n == 0x2029

end ComponentAudit
