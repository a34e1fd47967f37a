import ComponentAudit.Component.Usage
import ComponentAudit.Script.Pattern

/-!
Import statements: static imports with a clause, imports for their side effect, and calls that load
a module by a literal path. An import clause is cut at its commas and braces, and each part gives the
local name that it binds.
-/

namespace ComponentAudit

inductive ImportKind where
  | static
  | dynamic
  deriving DecidableEq

def ImportKind.label : ImportKind → Text
  | .static => "es6"
  | .dynamic => "dynamic"

/-- An import with the local names that it binds. -/
structure Import where
  modulePath : Text
  kind : ImportKind
  position : Position
  offset : Nat
  endOffset : Nat
  symbols : List Text
  usages : List Usage := []

/-- An import as found in a script, offsets counted from the script's start. -/
structure FoundImport where
  modulePath : Text
  kind : ImportKind
  start : Nat
  stop : Nat
  symbols : List Text

namespace Import

/-- The local name that a part in front of the braces binds: a default name, or the alias of a
namespace. -/
def plainSymbol? (part : Text) : Option Text :=
  let part := Text.trim part
  if part.isEmpty then none
  else if part.head? == some '*' then (Text.cut? " as " part).map fun (_, name) => Text.trim name
  else some part

def bracedSymbol? (part : Text) : Option Text :=
  let part := Text.trim part
  let part := ((Text.dropPrefix? "type " part).map Text.trim).getD part
  if part.isEmpty then none
  else some (((Text.cut? " as " part).map fun (_, name) => Text.trim name).getD part)

/-- Whether a text is an identifier with an ASCII first character. -/
def isIdentifier : Text → Bool
  | [] => false
  | c :: rest => isIdentHead c && rest.all isIdentChar

/-- The local names that a clause such as `A, { b as c }` binds. -/
def clauseSymbols (clause : Text) : List Text :=
  let clause := Text.trim clause
  let clause := (Text.dropPrefix? "type " clause).getD clause
  let found := match Text.cut? "\x7b" clause with
    | none => (Text.splitOn ',' clause).filterMap plainSymbol?
    | some (head, body) =>
      (Text.splitOn ',' head).filterMap plainSymbol? ++
        (Text.splitOn ',' (body.takeWhile (· != '}'))).filterMap bracedSymbol?
  found.filter isIdentifier

def isPathQuote (c : Char) : Bool := c == '\'' || c == '"'

/-- The word `from` and a module path. -/
def source? (c : Cursor) : Option (Text × Cursor) := do
  let c := c.skipSpaces
  if c.prev?.any isWordChar then none
  else (← c.expect? "from").skipSpaces.literal? isPathQuote

def atImportWord (c : Cursor) : Bool :=
  !c.prev?.any isWordChar && c.startsWith "import" && !(c.after.drop 6).head?.any isWordChar

/-- The shortest clause that a source follows, with the module path and the place behind it. A clause
holds no quote, no semicolon and no other `import`. -/
def clauseFrom (before : Text) : Text → Option (Text × Text × Cursor)
  | [] => none
  | c :: rest =>
    match source? ⟨before, c :: rest⟩ with
    | some (path, stop) => some ([], path, stop)
    | none =>
      if c == ';' || isQuote c || atImportWord ⟨before, c :: rest⟩ then none
      else (clauseFrom (c :: before) rest).map fun (clause, found) => (c :: clause, found)

def clauseImport? (c : Cursor) : Option (FoundImport × Cursor) := do
  if !c.startsFresh then none
  else
    let inside ← c.wordAndSpaces? "import"
    let (clause, path, stop) ← clauseFrom inside.before inside.after
    some (⟨path, .static, c.offset, stop.offset, clauseSymbols clause⟩, stop)

/-- An import for its side effect. -/
def bareImport? (c : Cursor) : Option (FoundImport × Cursor) := do
  if !c.startsFresh then none
  else
    let (path, stop) ← (← c.expect? "import").skipSpaces.literal? isPathQuote
    some (⟨path, .static, c.offset, stop.offset, []⟩, stop)

def dynamicImport? (c : Cursor) : Option (FoundImport × Cursor) := do
  if !c.startsFresh then none
  else
    let inside ← (← c.expect? "import").skipSpaces.expect? "("
    let (path, rest) ← inside.skipSpaces.literal? isQuote
    let stop ← rest.skipSpaces.expect? ")"
    some (⟨path, .dynamic, c.offset, stop.offset, []⟩, stop)

/-- The imports of a masked script, in order of their offsets. -/
def findAll (script : Text) : List FoundImport :=
  (Cursor.collect clauseImport? script ++ Cursor.collect bareImport? script ++
    Cursor.collect dynamicImport? script).mergeSort fun a b => a.start ≤ b.start

end Import

structure ComponentImport where
  componentName : Text
  modulePath : Text
  position : Position
  usages : List Usage := []

def ComponentImport.isUsed (component : ComponentImport) : Bool := !component.usages.isEmpty

def isComponentPath (path : Text) : Bool := (".svelte" : Text).isSuffixOf path

/-- The component that an import brings in: a static import of a component file, under the first
name that it binds. -/
def ComponentImport.ofImport? (statement : Import) : Option ComponentImport :=
  match statement.symbols with
  | [] => none
  | symbol :: _ =>
    if statement.kind == .static && isComponentPath statement.modulePath then
      some { componentName := symbol, modulePath := statement.modulePath
             position := statement.position }
    else none

end ComponentAudit
