import ComponentAudit.Project.Glob

/-!
Ignore rules. A rule is a line of an ignore file; of the rules that match a path the last decides, so
a negated rule can take back an earlier one.
-/

namespace ComponentAudit

structure IgnoreRule where
  /-- The wildcard pattern, without the marks around it. -/
  pattern : Text
  /-- Whether only directories match. -/
  directoryOnly : Bool
  /-- Whether the pattern is bound to the root. -/
  anchored : Bool
  /-- Whether a match takes a path back in. -/
  negate : Bool
  /-- Whether the pattern names a path and not a single segment. -/
  hasSlash : Bool
  deriving DecidableEq

namespace IgnoreRule

/-- The rule of a pattern; none for a blank one. A final slash limits it to directories, and a
leading one binds it to the root. -/
def ofPattern? (pattern : Text) (negate : Bool) : Option IgnoreRule :=
  let pattern := Text.trim pattern
  if pattern.isEmpty then none
  else
    let directoryOnly := pattern.getLast? == some '/'
    let pattern := if directoryOnly then pattern.dropLast else pattern
    let anchored := pattern.head? == some '/'
    let pattern := if anchored then pattern.drop 1 else pattern
    some { pattern, directoryOnly, anchored, negate, hasSlash := pattern.contains '/' }

/-- The rule of a line; none for a blank line or a comment. -/
def ofLine? (line : Text) : Option IgnoreRule :=
  match Text.trim line with
  | [] => none
  | '#' :: _ => none
  | '!' :: rest => ofPattern? rest true
  | line => ofPattern? line false

def ofLines (lines : List Text) : List IgnoreRule := lines.filterMap ofLine?

/-- Whether a rule matches a path. A pattern with a slash matches the whole path, any other one of its
segments. -/
def isMatch (rule : IgnoreRule) (path : Text) (isDirectory : Bool) : Bool :=
  if rule.pattern.isEmpty || (rule.directoryOnly && !isDirectory) then false
  else if rule.anchored || rule.hasSlash then
    Glob.isMatch rule.pattern path ||
      (rule.directoryOnly && (rule.pattern ++ ['/']).isPrefixOf path)
  else (Text.splitOn '/' path).any (Glob.isMatch rule.pattern)

/-- Whether rules leave out a path: the last rule that matches decides. -/
def ignores (rules : List IgnoreRule) (path : Text) (isDirectory : Bool) : Bool :=
  rules.foldl (fun ignored rule => if rule.isMatch path isDirectory then !rule.negate else ignored)
    false

/-- The directories above a path, the outermost first. -/
def parents (path : Text) : List Text :=
  let segments := (Text.splitOn '/' path).dropLast
  (List.range segments.length).map fun depth => Text.join "/" (segments.take (depth + 1))

/-- Whether rules leave out a file, or a directory above it. -/
def ignoresFile (rules : List IgnoreRule) (path : Text) : Bool :=
  ignores rules path false || (parents path).any fun parent => ignores rules parent true

end IgnoreRule

end ComponentAudit
