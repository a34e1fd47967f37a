import ComponentAudit.Text.Basic

/-!
A place inside a text: the characters before it, nearest first, and the characters after it. Looking
ahead and looking behind are both recursion on a list, and the offset of the place is the number of
characters before it. Moving a place never changes its text.
-/

namespace ComponentAudit

structure Cursor where
  before : Text
  after : Text

namespace Cursor

def start (t : Text) : Cursor := ⟨[], t⟩

/-- The place with `offset` characters before it, or the end of a shorter text. -/
def seek (t : Text) (offset : Nat) : Cursor := ⟨(t.take offset).reverse, t.drop offset⟩

def offset (c : Cursor) : Nat := c.before.length

def text (c : Cursor) : Text := c.before.reverse ++ c.after

def prev? (c : Cursor) : Option Char := c.before.head?

def peek? (c : Cursor) : Option Char := c.after.head?

def advance (c : Cursor) (n : Nat) : Cursor :=
  ⟨(c.after.take n).reverse ++ c.before, c.after.drop n⟩

/-- The first place from here on whose next character fails `p`. -/
def skipWhile (p : Char → Bool) (c : Cursor) : Cursor :=
  ⟨(c.after.takeWhile p).reverse ++ c.before, c.after.dropWhile p⟩

def skipSpaces (c : Cursor) : Cursor := c.skipWhile isSpace

def skipIdent (c : Cursor) : Cursor := c.skipWhile isIdentChar

theorem text_seek (t : Text) (offset : Nat) : (seek t offset).text = t := by
  simp [seek, text]

theorem text_advance (c : Cursor) (n : Nat) : (c.advance n).text = c.text := by
  simp [advance, text, List.append_assoc]

theorem text_skipWhile (p : Char → Bool) (c : Cursor) : (c.skipWhile p).text = c.text := by
  simp [skipWhile, text, List.append_assoc]

theorem offset_seek (t : Text) (offset : Nat) : (seek t offset).offset = min offset t.length := by
  simp [seek, Cursor.offset]

theorem length_after_skipWhile (p : Char → Bool) (c : Cursor) :
    (c.skipWhile p).after.length ≤ c.after.length :=
  Text.length_dropWhile_le p c.after

theorem length_after_advance (c : Cursor) (n : Nat) :
    (c.advance n).after.length = c.after.length - n := by
  simp [advance]

def startsWith (c : Cursor) (word : Text) : Bool := word.isPrefixOf c.after

def expect? (word : Text) (c : Cursor) : Option Cursor :=
  if c.startsWith word then some (c.advance word.length) else none

def lastInk? (c : Cursor) : Option Char := (c.before.dropWhile isSpace).head?

/-- Whether `word` is the identifier in front of the place, white space apart. -/
def precededBy (c : Cursor) (word : Text) : Bool :=
  ((c.before.dropWhile isSpace).takeWhile isIdentChar).reverse == word

/-- Whether neither the character before the place nor the one `n` characters on belongs to an
identifier. -/
def isolated (c : Cursor) (n : Nat) : Bool :=
  !c.prev?.any isIdentChar && !(c.after.drop n).head?.any isIdentChar

/-- Whether `word` follows as an identifier of its own. -/
def wordAt (c : Cursor) (word : Text) : Bool := c.startsWith word && c.isolated word.length

def restOfLine (c : Cursor) : Text := c.after.takeWhile (· != '\n')

/-- The current line. A line feed belongs to the line that it ends. -/
def line (c : Cursor) : Text := (c.before.takeWhile (· != '\n')).reverse ++ c.restOfLine

/-- The matches of a recogniser from left to right, none overlapping an earlier one. The first
argument counts the characters that the last match still covers. -/
def collectFrom {α : Type} (recognise : Cursor → Option (α × Cursor)) :
    Nat → Text → Text → List α
  | _, _, [] => []
  | covered + 1, before, c :: rest => collectFrom recognise covered (c :: before) rest
  | 0, before, c :: rest =>
    match recognise ⟨before, c :: rest⟩ with
    | none => collectFrom recognise 0 (c :: before) rest
    | some (found, stop) =>
      found :: collectFrom recognise (stop.offset - before.length - 1) (c :: before) rest

/-- The matches of a recogniser in a whole text. A recogniser gets a place and returns what it found
there with the place behind it, and it matches at least one character. -/
def collect {α : Type} (recognise : Cursor → Option (α × Cursor)) (t : Text) : List α :=
  collectFrom recognise 0 [] t

end Cursor

end ComponentAudit
