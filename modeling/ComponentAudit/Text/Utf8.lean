import ComponentAudit.Text.Basic

/-!
Texts as bytes. Decoding is strict: a byte that cannot start or go on with a character, a longer form
than needed, a surrogate and a character cut off at the end are all refused.
-/

namespace ComponentAudit.Utf8

/-- A character under way: how many bytes are missing, the bits so far, and the bounds of the next
byte. -/
structure Pending where
  missing : Nat
  bits : Nat
  low : Nat := 0x80
  high : Nat := 0xbf

/-- The character that a first byte starts; none if no character starts with it. The second byte is
bounded so that no longer form than needed, no surrogate and nothing beyond the last character is
read. -/
def lead? (byte : Nat) : Option Pending :=
  if 0xc2 ≤ byte && byte ≤ 0xdf then some { missing := 0, bits := byte - 0xc0 }
  else if byte == 0xe0 then some { missing := 1, bits := 0, low := 0xa0 }
  else if byte == 0xed then some { missing := 1, bits := 0xd, high := 0x9f }
  else if 0xe1 ≤ byte && byte ≤ 0xef then some { missing := 1, bits := byte - 0xe0 }
  else if byte == 0xf0 then some { missing := 2, bits := 0, low := 0x90 }
  else if byte == 0xf4 then some { missing := 2, bits := 4, high := 0x8f }
  else if 0xf1 ≤ byte && byte ≤ 0xf3 then some { missing := 2, bits := byte - 0xf0 }
  else none

def decodeFrom : Option Pending → List UInt8 → Option Text
  | none, [] => some []
  | some _, [] => none
  | none, byte :: rest =>
    if byte.toNat < 0x80 then (decodeFrom none rest).map (Char.ofNat byte.toNat :: ·)
    else
      match lead? byte.toNat with
      | none => none
      | some pending => decodeFrom (some pending) rest
  | some pending, byte :: rest =>
    let n := byte.toNat
    if n < pending.low || pending.high < n then none
    else
      let bits := pending.bits * 64 + (n - 0x80)
      match pending.missing with
      | 0 => (decodeFrom none rest).map (Char.ofNat bits :: ·)
      | missing + 1 => decodeFrom (some { missing, bits }) rest

/-- The text that bytes stand for; none if they stand for none. -/
def decode? (bytes : List UInt8) : Option Text := decodeFrom none bytes

/-- A byte that goes on with a character: the six bits of `n` above the lowest `shift`. -/
def continuation (n shift : Nat) : UInt8 := (0x80 + n / Nat.pow 2 shift % 64).toUInt8

def encodeChar (c : Char) : List UInt8 :=
  let n := c.toNat
  if n < 0x80 then [n.toUInt8]
  else if n < 0x800 then [(0xc0 + n / 64).toUInt8, continuation n 0]
  else if n < 0x10000 then [(0xe0 + n / 4096).toUInt8, continuation n 6, continuation n 0]
  else [(0xf0 + n / 262144).toUInt8, continuation n 12, continuation n 6, continuation n 0]

def encode (t : Text) : List UInt8 := t.flatMap encodeChar

def size (t : Text) : Nat := (encode t).length

end ComponentAudit.Utf8

namespace ComponentAudit

/-- A text with every line end as a line feed; a carriage return with its line feed is one line end. -/
def Text.normalizeLineEnds : Text → Text
  | [] => []
  | '\r' :: '\n' :: rest => '\n' :: normalizeLineEnds rest
  | c :: rest => (if c == '\r' then '\n' else c) :: normalizeLineEnds rest

end ComponentAudit
