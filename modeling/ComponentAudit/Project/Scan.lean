import ComponentAudit.Project.Discovery

/-!
The analysis of all component files that a path stands for. Files that are no texts are skipped.
-/

namespace ComponentAudit

structure Scan where
  root : Location
  analyses : List Analysis := []
  skipped : List Text := []

namespace Scan

def addFile (files : Files) (options : Options) (scan : Scan) (file : Location) : Run Scan :=
  match files.readText file with
  | .error error => do
    let reason : Text := match error with
      | .file error => ": " ++ error.message
      | .undecodable => []
    Run.log .warning .project ("Skipping " ++ file.text ++ reason)
    return { scan with skipped := scan.skipped ++ [file.text] }
  | .ok text => do
    Run.log .debug .project ("Processing " ++ file.text)
    let analysis ← Run.analyzeFile text file.text options
    return { scan with analyses := scan.analyses ++ [analysis] }

/-- Scans a path. Without given settings those of its directory apply. -/
def run (host : Host) (files : Files) (given : Option Settings) (path : Text) : Run Scan := do
  let target ← Run.existing host files path
  let directory := if files.hasDirectory target then target else target.parent
  let settings ← match given with
    | some settings => pure settings
    | none => Run.loadSettings host files directory
  let found ← Discovery.find host files settings.selection target.text
  Run.log .info .project
    ("Analysing " ++ Text.ofNat found.length ++ " files under " ++ target.text)
  found.foldlM (addFile files settings.options) { root := target }

end Scan

end ComponentAudit
