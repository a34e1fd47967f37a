import ComponentAudit.Text.Bracket

/-!
Comment masking: every character of a comment but a line feed becomes a blank, so offsets and lines
stay where they are.
-/

namespace ComponentAudit.Comment

/-- What a masked character becomes. -/
def blank (c : Char) : Char := if c == '\n' then '\n' else ' '

/-- Where a reader of script text stands. -/
inductive ScriptMode where
  | code
  | literal (quote : Char)
  | line
  | block

/-- Masks script text from a given mode. A backslash in a literal escapes the next character, and a
line feed ends every literal but a template. -/
def maskScriptFrom : ScriptMode → Text → Text
  | _, [] => []
  | .code, '/' :: '/' :: rest => ' ' :: ' ' :: maskScriptFrom .line rest
  | .code, '/' :: '*' :: rest => ' ' :: ' ' :: maskScriptFrom .block rest
  | .code, c :: rest => c :: maskScriptFrom (if isQuote c then .literal c else .code) rest
  | .literal q, '\\' :: c :: rest => '\\' :: c :: maskScriptFrom (.literal q) rest
  | .literal q, c :: rest =>
    c :: maskScriptFrom (if c == q || (c == '\n' && q != '`') then .code else .literal q) rest
  | .line, c :: rest => blank c :: maskScriptFrom (if c == '\n' then .code else .line) rest
  | .block, '*' :: '/' :: rest => ' ' :: ' ' :: maskScriptFrom .code rest
  | .block, c :: rest => blank c :: maskScriptFrom .block rest

def maskScript (t : Text) : Text := maskScriptFrom .code t

inductive StyleMode where
  | code
  | line
  | block

/-- Masks style text from a given mode; `fresh` says that the current line is blank so far. Only
there does `//` open a comment. -/
def maskStyleFrom : StyleMode → (fresh : Bool) → Text → Text
  | _, _, [] => []
  | .code, _, '/' :: '*' :: rest => ' ' :: ' ' :: maskStyleFrom .block false rest
  | .code, true, '/' :: '/' :: rest => ' ' :: ' ' :: maskStyleFrom .line false rest
  | .code, fresh, c :: rest =>
    c :: maskStyleFrom .code (c == '\n' || (fresh && isSpace c)) rest
  | .line, _, c :: rest =>
    blank c :: maskStyleFrom (if c == '\n' then .code else .line) (c == '\n') rest
  | .block, _, '*' :: '/' :: rest => ' ' :: ' ' :: maskStyleFrom .code false rest
  | .block, _, c :: rest => blank c :: maskStyleFrom .block false rest

def maskStyle (t : Text) : Text := maskStyleFrom .code true t

end ComponentAudit.Comment
