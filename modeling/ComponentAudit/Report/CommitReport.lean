import ComponentAudit.History.Snapshot
import ComponentAudit.Report.ScanReport

/-!
Reports on revisions: on one with its files, and on the change between two.
-/

namespace ComponentAudit

def Commit.toJson (commit : Commit) : Json :=
  .obj [("hash", .str commit.hash), ("author", .str commit.author), ("date", .str commit.date),
    ("message", .str commit.message)]

def Commit.describe (commit : Commit) (title : Text) : List Text :=
  [title, "- Hash: " ++ commit.hash, "- Message: " ++ commit.message, "- Date: " ++ commit.date,
    "- Author: " ++ commit.author]

def numberedPaths (paths : List Text) : List Text :=
  (numbered paths).map fun (path, number) => "  " ++ number ++ ". " ++ path

def dashes (width : Nat) : Text := List.replicate width '-'

namespace CommitAnalysis

def toJson (analysis : CommitAnalysis) : Json :=
  .obj [("commit", analysis.commit.toJson), ("modified_files", .texts analysis.modifiedFiles),
    ("statistics", analysis.statistics.toJson),
    ("results", .arr (analysis.analyses.map Analysis.toJson))]

/-- The counters of a revision and all its files in full. -/
def describeProject (analysis : CommitAnalysis) : Text :=
  let files := analysis.analyses.map Analysis.describe
  unlines ("Project Statistics:" :: Analysis.tallyLines analysis.statistics) ++
    (if files.isEmpty then [] else '\n' :: Text.join fileSeparator files)

def describe (analysis : CommitAnalysis) : Text :=
  let modified := analysis.modifiedFiles
  unlines (stack [
    ["Git Commit Analysis", Findings.rule 50, ""],
    analysis.commit.describe "Commit Information:",
    ["- Modified Files: " ++ Text.ofNat modified.length],
    unlessEmpty modified ["", "Modified Component Files:"],
    numberedPaths modified,
    ["", "Project Analysis at this Commit:", dashes 40]]) ++ analysis.describeProject

/-- The records of a revision, each with its hash behind it. -/
def csvRecords (analysis : CommitAnalysis) : List (List Text) :=
  (analysis.analyses.flatMap Analysis.csvRecords).map fun record => record ++ [analysis.commit.hash]

def render (analysis : CommitAnalysis) : OutputFormat → Text
  | .json => analysis.toJson.toText
  | .csv => Csv.write (Analysis.csvHeader ++ [("Commit" : Text)]) analysis.csvRecords
  | .text => analysis.describe

end CommitAnalysis

namespace CommitComparison

def toJson (comparison : CommitComparison) : Json :=
  .obj [("before", comparison.before.toJson), ("after", comparison.after.toJson),
    ("differences", comparison.differences.toJson),
    ("modified_files", .texts comparison.after.modifiedFiles),
    ("added_files", .texts comparison.addedFiles),
    ("removed_files", .texts comparison.removedFiles)]

def csvHeader : List Text :=
  ["Metric", "Commit1_Value", "Commit2_Value", "Change", "Commit1_Hash", "Commit2_Hash"]

def csvRecords (comparison : CommitComparison) : List (List Text) :=
  let before := comparison.before
  let after := comparison.after
  comparison.differences.map fun (name, change) =>
    [name, Text.ofInt (before.statistics.get name), Text.ofInt (after.statistics.get name),
      Text.ofInt change, before.commit.hash, after.commit.hash]

/-- A counter's name as a phrase. -/
def phrase (name : Text) : Text :=
  match name.map fun c => if c == '_' then ' ' else c with
  | [] => []
  | c :: rest => c.toUpper :: Text.lower rest

/-- The line on the change of a counter, with a sign. -/
def changeLine (name : Text) (change : Int) : Text :=
  let sign : Text := if 0 < change then "+" else []
  "- " ++ phrase name ++ ": " ++ sign ++ Text.ofInt change

/-- Paths under a heading, or nothing if there are none. -/
def pathLines (heading : Text) (paths : List Text) : List Text :=
  stack [unlessEmpty paths ["", heading], numberedPaths paths]

/-- One side of a comparison in full, under its own title. -/
def describeSide (label : Text) (analysis : CommitAnalysis) : Text :=
  unlines [Findings.rule 50, label ++ " (" ++ analysis.commit.hash ++ "):", Findings.rule 50] ++
    analysis.describeProject ++ ['\n']

def describe (comparison : CommitComparison) : Text :=
  unlines (stack [
    ["Git Commit Comparison Analysis", Findings.rule 50, ""],
    comparison.before.commit.describe "Commit 1 (Before):",
    [""],
    comparison.after.commit.describe "Commit 2 (After):",
    ["", "Changes Summary:", dashes 30],
    comparison.differences.map fun (name, change) => changeLine name change,
    pathLines "Modified Files:" comparison.after.modifiedFiles,
    pathLines "Added Files:" comparison.addedFiles,
    pathLines "Removed Files:" comparison.removedFiles]) ++ ['\n'] ++
    describeSide "BEFORE" comparison.before ++ describeSide "AFTER" comparison.after

def render (comparison : CommitComparison) : OutputFormat → Text
  | .json => comparison.toJson.toText
  | .csv => Csv.write csvHeader comparison.csvRecords
  | .text => comparison.describe

end CommitComparison

end ComponentAudit
