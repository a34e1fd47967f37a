import ComponentAudit.Component.Options
import ComponentAudit.Project.Host

/-!
The settings of a project, read from a document. A missing or blank file stands for the defaults. A
value of the wrong type counts as missing, apart from an output format, which has to be one that
exists.
-/

namespace ComponentAudit

structure Settings where
  /-- The directory that holds the settings. -/
  root : Location
  extensions : List Text := Selection.defaultExtensions
  excludePaths : List Text := []
  format : OutputFormat := .text
  options : Options := {}

/-- Whether a value is a number with too many digits to be written out. -/
def Yaml.isLong : Yaml → Bool
  | .int n => digitLimit < (Text.ofNat n.natAbs).length
  | _ => false

namespace Settings

/-- A text, number or truth value as text; nothing else has one. -/
def plainText? : Yaml → Option Text
  | .str t => some t
  | .bool true => some "True"
  | .bool false => some "False"
  | .int n => some (Text.ofInt n)
  | .float x => some x.text
  | _ => none

/-- Writes a value out as text. -/
def scalarText? (value : Yaml) : Except LoadError (Option Text) :=
  if value.isLong then .error (.broken .longNumber) else .ok (plainText? value)

/-- A list of texts. A single text that is not blank is a list of its own. -/
def textList : Option Yaml → Except LoadError (List Text)
  | some (.seq items) => return (← items.mapM scalarText?).reduceOption
  | some (.str t) => .ok (if Text.isBlank t then [] else [Text.trim t])
  | _ => .ok []

/-- A truth value, which may also be a word for one. -/
def truth? : Option Yaml → Option Bool
  | some (.bool value) => some value
  | some (.str t) =>
    let word := Text.lower (Text.trim t)
    if [("true" : Text), "yes", "1", "on"].contains word then some true
    else if [("false" : Text), "no", "0", "off"].contains word then some false
    else none
  | _ => none

def formatValue? (document : Yaml) : Option Yaml := (document.get? "output").bind (·.get? "format")

/-- The output format of a name, whatever its case. -/
def formatNamed (name : Text) : Except LoadError OutputFormat :=
  let name := Text.lower name
  match OutputFormat.ofText? name with
  | some format => .ok format
  | none => .error (.invalid (.unsupportedFormat name))

/-- The output format; the default if none is asked for. -/
def formatOf (document : Yaml) : Except LoadError OutputFormat :=
  match formatValue? document with
  | none => .ok .text
  | some value => do
    match ← scalarText? value with
    | none => .ok .text
    | some name => formatNamed name

def globalIdsOf (analysis : Yaml) : Except LoadError (List Text) :=
  match analysis.get? "global_ids" with
  | none => .ok ({} : Options).globalIds
  | some found => textList (some found)

def optionsOf (document : Yaml) : Except LoadError Options :=
  let defaults : Options := {}
  match document.get? "analysis" with
  | none => .ok defaults
  | some analysis => do
    let globalIds ← globalIdsOf analysis
    let extraBuiltins ← textList (analysis.get? "extra_builtin_methods")
    let scanMarkup := (truth? (analysis.get? "scan_markup_for_variables")).getD defaults.scanMarkup
    return { scanMarkup, globalIds, extraBuiltins }

/-- The settings that a document stands for; one without content stands for the defaults. -/
def ofDocument (root : Location) : Yaml → Except LoadError Settings
  | .null => .ok { root }
  | .map entries => do
    let document := Yaml.map entries
    let extensions ← textList (document.get? "extensions")
    let excludePaths ← textList (document.get? "exclude_paths")
    let format ← formatOf document
    let options ← optionsOf document
    return {
      root
      extensions :=
        if extensions.isEmpty then Selection.defaultExtensions
        else extensions.map normalizeExtension
      excludePaths, format, options }
  | _ => .error (.invalid .notAMapping)

/-- The path of the settings file for a path: the path itself if its extension says so, else that of the
file in the directory, or in the directory around the file, that the path names. -/
def filePath (path : Path) (isDirectory : Bool) : Path :=
  if isDirectory then path.child fileName
  else if path.extension == ".yml" || path.extension == ".yaml" then path
  else path.parent.child fileName

/-- The file that holds the settings for a path. -/
def fileFor (host : Host) (files : Files) (path : Path) : Except LoadError Location := do
  let path ← (host.expand path).mapError .broken
  let isDirectory ← (files.leadsToDirectory path).mapError (.broken ∘ .file)
  let file ← (filePath path isDirectory).checked.mapError .broken
  return files.resolve file

def ofText (host : Host) (file : Location) (text : Text) : Except LoadError Settings :=
  if Text.isBlank text then .ok { root := file.parent }
  else
    match host.readYaml text with
    | .error (.malformed reason) => .error (.invalid (.malformed file.name reason))
    | .error .broken => .error (.broken .brokenReader)
    | .ok document => ofDocument file.parent document

/-- The settings in a file, which may be missing. -/
def ofFile (host : Host) (files : Files) (file : Location) : Except LoadError Settings := do
  if ← (files.finds file).mapError (.broken ∘ .file) then
    match files.readText file with
    | .error .undecodable => .error (.broken .undecodable)
    | .error (.file error) => .error (.invalid (.unreadable file.name error))
    | .ok text => ofText host file text
  else return { root := file.parent }

def load (host : Host) (files : Files) (path : Path) : Except LoadError Settings := do
  ofFile host files (← fileFor host files path)

def selection (settings : Settings) : Selection :=
  Selection.of settings.extensions settings.excludePaths

end Settings

end ComponentAudit
