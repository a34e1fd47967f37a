import ComponentAudit.History.Git
import ComponentAudit.Project.Files
import ComponentAudit.Report.Format

/-!
What can go wrong in a run. Most failures come with a message of the program. The others are those of the
system and of the libraries underneath, which nobody takes care of (`Breakdown`).
-/

namespace ComponentAudit

def Settings.fileName : Text := ".findref.yml"

inductive SettingsError where
  | unreadable (name : Text) (error : FileError)
  | malformed (name reason : Text)
  | notAMapping
  | unsupportedFormat (name : Text)

def SettingsError.message : SettingsError → Text
  | .unreadable name error => "Failed to read " ++ name ++ ": " ++ error.message
  | .malformed name reason => "Failed to parse " ++ name ++ ": " ++ reason
  | .notAMapping => Settings.fileName ++ " must contain a mapping at the root"
  | .unsupportedFormat name =>
    "Unsupported output format '" ++ name ++ "' (expected one of " ++
      Text.join ", " (OutputFormat.formats.map OutputFormat.label) ++ ")"

/-- The most digits of a number that can be written out. -/
def digitLimit : Nat := 4300

/-- What ends a computation without a word of the program about it. -/
inductive Breakdown where
  | file (error : FileError)
  /-- A file that has to be read is not a text. -/
  | undecodable
  /-- A path starts in a home directory that is not known. -/
  | unknownHome
  /-- A path holds the null character. -/
  | nullCharacter
  /-- A number that has to be written out has too many digits. -/
  | longNumber
  /-- The reader of documents ended without saying what is wrong with one. -/
  | brokenReader

def Breakdown.message : Breakdown → Text
  | .file error => error.message
  | .undecodable => "The file is not a text"
  | .unknownHome => "Could not determine home directory."
  | .nullCharacter => "embedded null byte"
  | .longNumber => "Exceeds the limit (" ++ Text.ofNat digitLimit ++ " digits) for integer string " ++
      "conversion; use sys.set_int_max_str_digits() to increase the limit"
  | .brokenReader => "The document cannot be read"

inductive LoadError where
  | invalid (error : SettingsError)
  | broken (breakdown : Breakdown)

inductive Failure where
  | pathNotFound (path : Text)
  | settings (error : SettingsError)
  | git (error : GitError)
  | report (error : ReportError)
  | broken (breakdown : Breakdown)

def Failure.message : Failure → Text
  | .pathNotFound path => "Path not found: " ++ path
  | .settings error => error.message
  | .git error => error.message
  | .report error => error.message
  | .broken breakdown => breakdown.message

end ComponentAudit
