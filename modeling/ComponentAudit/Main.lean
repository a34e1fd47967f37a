import ComponentAudit.Program
import ComponentAudit.Yaml.Reader

/-!
The command line. The working directory and whatever the words name are read from disk into a tree,
the program runs on that tree, and what it wrote goes back to disk. Documents are read by the reader for
plain ones. No other program is run, so questions about a repository get no answer here.
-/

namespace ComponentAudit.Console

/-- How many directories deep the disk is read. -/
def depthLimit : Nat := 64

/-- Whether the content of a directory is read. Those without sources are read only by name. -/
def isRead (entry : IO.FS.DirEntry) : Bool := !excludedDirectories.contains entry.fileName.toList

/-- The node at an entry of a directory, down to a depth. Links are left out, and so is what cannot
be read. -/
def readNode : Nat → IO.FS.DirEntry → IO (Option Tree)
  | 0, _ => return none
  | depth + 1, entry => do
    try
      match (← entry.path.symlinkMetadata).type with
      | .file => return some (.file (← IO.FS.readBinFile entry.path).toList)
      | .dir =>
        let inside ← entry.path.readDir
        let entries ← (inside.filter isRead).foldlM (fun entries next => do
          match ← readNode depth next with
          | some node => return Tree.putEntry next.fileName.toList node entries
          | none => return entries) []
        return some (.directory entries)
      | _ => return none
    catch _ => return none

/-- Puts what is on disk at a location into the files, down to a depth. -/
def load (files : Files) (depth : Nat) (location : Location) : IO Files := do
  let entry : IO.FS.DirEntry := { root := "/", fileName := String.ofList location.text }
  match ← readNode depth entry with
  | some node => return files.put location node
  | none => return files

/-- The words that may name something on disk: whole words, and the values behind an equals sign. -/
def namesIn (words : List Text) : List Text :=
  words.flatMap fun word =>
    match Grammar.splitValue word with
    | (_, some value) => [word, value]
    | _ => [word]

/-- The home directory of a user in a list of all users, one to a line. -/
def homeIn (users user : Text) : Option Text :=
  (Text.splitOn '\n' users).findSome? fun line =>
    match Text.splitOn ':' line with
    | name :: _ :: _ :: _ :: _ :: home :: _ => if name == user then some home else none
    | _ => none

def host : IO Host := do
  let own := (← IO.getEnv "HOME").map String.toList
  let users ← try IO.FS.readFile "/etc/passwd" catch _ => pure ""
  return {
    readYaml := Yaml.read
    home := fun user => if user.isEmpty then own else homeIn users.toList user }

/-- The files that a command line may be about: those below the working directory, and for a name that
leads elsewhere the files beside it and below it. -/
def snapshot (host : Host) (words : List Text) : IO Files := do
  let workingDirectory := (Path.ofText (← IO.currentDir).toString.toList).resolve ⟨[]⟩
  let empty : Files := ⟨.directory [], workingDirectory⟩
  let named := (namesIn words).filterMap fun name => (host.locate empty (Path.ofText name)).toOption
  let outside := named.filter fun location => (location.relativeTo? workingDirectory).isNone
  let files ← load empty depthLimit workingDirectory
  outside.foldlM (fun files location => do
    load (← load files 2 location.parent) depthLimit location) files

def noGit : Git := ⟨fun _ => .error (.notStarted "no commands are run")⟩

def save (location : Location) (content : List UInt8) : IO Unit := do
  IO.FS.createDirAll (String.ofList location.parent.text)
  IO.FS.writeBinFile (String.ofList location.text) ⟨content.toArray⟩

def run (words : List Text) : IO UInt32 := do
  let host ← host
  let outcome := Program.run host (← snapshot host words) noGit words
  (Program.written words outcome).forM fun (location, content) => save location content
  IO.print (String.ofList outcome.output)
  IO.eprint (String.ofList outcome.errorOutput)
  match outcome.ending with
  | .exited code => return code.toUInt32
  | .escaped failure =>
    IO.eprintln (String.ofList failure.message)
    return 1

end ComponentAudit.Console

def main (arguments : List String) : IO UInt32 :=
  ComponentAudit.Console.run (arguments.map String.toList)
