import Docset.Host
import Docset.Shell.Launch

/-!
# A host of its own

This host runs scripts and the usual programs itself, on the files that it is given.
-/
namespace Docset.Shell

open Command (Setting Ending)

/-- The variables that a command gets to see; where programs are is always among them. -/
def bindings (setting : Setting) : List (String × String) :=
  if (setting.environment.lookup "PATH").isSome then setting.environment
  else setting.environment ++ [("PATH", Program.searchPath)]

/-- The first of some paths that can be started. One that may not be started counts if there is no
other. -/
def loadFirst (fs : FileSystem) (name : String) (args : List String) (cause : IoError) :
    List String → Except IoError Program.Invocation
  | [] => .error cause
  | path :: rest =>
      match Program.load fs Program.interpreterLimit path name args with
      | .ok i => .ok i
      | .error .permissionDenied => loadFirst fs name args .permissionDenied rest
      | .error e => if isAbsence e then loadFirst fs name args cause rest else .error e

/-- Finds the program of a command. A name without a slash is looked for where programs are. -/
def find (fs : FileSystem) (setting : Setting) (name : String) (args : List String) :
    Except IoError Program.Invocation :=
  if name.toList.contains '/' || name = "" then
    Program.load fs Program.interpreterLimit name name args
  else if 255 < name.utf8ByteSize then .error .nameTooLong
  else loadFirst fs name args .notFound (Launch.systemPaths (bindings setting) name)

/-- Runs a program, and tells what came of it and what it made of the files. -/
def execute (fs : FileSystem) (setting : Setting) (i : Program.Invocation) :
    Ending × FileSystem :=
  let start : State :=
    { files := fs
      streams := #[.buffer setting.input 0, .void, .buffer .empty 0]
      channels := [(0, 0), (1, 1), (2, 2)] }
  let tell (exit : Program.Exit) (s : State) : Ending × FileSystem :=
    (⟨exit, Evaluation.bufferBytes s 2, s.unread 0⟩, s.files)
  match perform depthLimit (.launch i (bindings setting)) start with
  | .ok _ s => tell (.status (s.status % 256)) s
  | .error (.killed n) s => tell (.signal n) s
  | .error _ s => tell (.status (s.status % 256)) s

/-- Runs a program in a folder. Neither the folder nor a word of the command may contain the
character that ends system strings. -/
def start : Command.Starter := fun setting folder program args fs =>
  if (folder.text :: program :: args).any (·.toList.contains '\x00') then
    .error "nul byte found in provided data" fs
  else
    match fs.stat folder with
    | .ok (place, .folder) =>
        match find { fs with here := place } setting program args with
        | .error e => .error e.message fs
        | .ok i =>
            let (ending, after) := execute { fs with here := place } setting i
            .ok ending { after with here := fs.here }
    | .ok _ => .error IoError.notAFolder.message fs
    | .error e => .error e.message fs

def host : Host where
  compile := Scan.compileWithin Scan.defaultPatternLimit
  explain _ _ := "the document does not have the expected form"
  start := start

end Docset.Shell
