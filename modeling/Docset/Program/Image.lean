import Docset.Program.Calculate
import Docset.Program.Edit
import Docset.Program.Files
import Docset.Program.Find
import Docset.Program.Grep
import Docset.Program.Names
import Docset.Program.Output
import Docset.Program.Test
import Docset.Program.Text

/-!
# Programs as files

A program is started by the name of a file. The file holds a program of the system,
or it is a script that names the program that is to read it. Programs of the system
stand in one folder, each as a file that holds nothing but its name behind a mark.
-/
namespace Docset.Program

/-- The bytes that program files start with. -/
def mark : List UInt8 := [0x7f, 0x45, 0x4c, 0x46, 0xff]

/-- The contents of the file of a program. -/
def image (name : String) : ByteArray := ⟨mark.toArray⟩ ++ name.toUTF8

/-- What the contents of a file are to those who start it. -/
inductive Image where
  | program (name : String)
  | script (interpreter : String) (argument : Option String)
  | other
  deriving DecidableEq, Repr

/-- A script starts with a line that names its interpreter, with at most one argument. Only so much
of the line is looked at. -/
def lineLimit : Nat := 255

def isGap (c : Char) : Bool := c = ' ' || c = '\t'

/-- The interpreter that the first line of a script names. -/
def ofFirstLine (line : List Char) : Image :=
  let line := (line.reverse.dropWhile isGap).reverse.dropWhile isGap
  let name := line.takeWhile (!isGap ·)
  let argument := (line.drop name.length).dropWhile isGap
  let text (cs : List Char) : String := (String.fromUTF8? (ofChars cs)).getD (String.ofList cs)
  if name.isEmpty then .other
  else .script (text name) (if argument.isEmpty then none else some (text argument))

def Image.ofBytes (bytes : ByteArray) : Image :=
  let start := (bytes.extract 0 (lineLimit + 1)).toList
  if mark.isPrefixOf start then
    match String.fromUTF8? (bytes.extract mark.length bytes.size) with
    | some name => .program name
    | none => .other
  else
    match chars (bytes.extract 0 (lineLimit + 1)) with
    | '#' :: '!' :: rest => ofFirstLine (rest.takeWhile (· ≠ '\n'))
    | _ => .other

/-- A program of the system that is to run. -/
structure Invocation where
  program : String
  /-- What it is called by. -/
  calledBy : String
  args : List String
  deriving DecidableEq, Repr

/-- What starting a file comes to. The interpreter of a script may be a script itself, but only so
many times. -/
def load (fs : FileSystem) : Nat → String → String → List String → Except IoError Invocation
  | 0, _, _, _ => .error .tooManyLinks
  | depth + 1, path, calledBy, args => do
      match ← fs.stat ⟨path⟩ with
      | (_, .file bytes true) =>
          match Image.ofBytes bytes with
          | .program name => .ok ⟨name, calledBy, args⟩
          | .script interpreter argument =>
              load fs depth interpreter interpreter (argument.toList ++ path :: args)
          | .other => .error .notAProgram
      | _ => .error .permissionDenied

/-- How deep interpreters may be nested. -/
def interpreterLimit : Nat := 5

/-- Does nothing, and succeeds. -/
def succeed : Program := fun c => c.begin

/-- Does nothing, and fails. -/
def refuse : Program := fun c => { c.begin with status := 1 }

/-- Shows the current folder. -/
def currentFolder : Program := fun c => c.begin.say (c.files.here.path.text ++ "\n")

/-- Shows variables of the environment. -/
def showEnvironment : Program := fun c =>
  match c.args with
  | [] => each c.begin (c.environment.map fun (n, v) => n ++ "=" ++ v ++ "\n") (·.say ·)
  | names => each c.begin names fun o name =>
      match c.environment.lookup name with
      | some value => o.say (value ++ "\n")
      | none => { o with status := 1 }

/-- Shows the name of the user. -/
def userName : Program := fun c => c.begin.say "root\n"

/-- The programs that need nothing but what they are started with. -/
def table : List (String × Program) :=
  [("[", Test.run true), ("basename", base), ("cat", concatenate), ("chmod", changeMode),
    ("cmp", compare), ("cp", copy), ("cut", cut), ("dirname", folder), ("echo", echo),
    ("egrep", Grep.run ['E']), ("expr", Calculate.run), ("false", refuse),
    ("fgrep", Grep.run ['F']), ("find", Find.run), ("grep", Grep.run []), ("head", head),
    ("ln", link), ("ls", list), ("mkdir", makeFolder), ("mv", move), ("paste", paste),
    ("printenv", showEnvironment), ("printf", print), ("pwd", currentFolder),
    ("readlink", readLink), ("realpath", realPath), ("rev", reverseEach), ("rm", remove),
    ("rmdir", removeFolder), ("sed", Edit.run), ("seq", numbers), ("sleep", sleep), ("sort", sort),
    ("sync", succeed), ("tac", backward), ("tail", tail), ("tee", tee), ("test", Test.run false),
    ("touch", touch), ("tr", mapCharacters), ("true", succeed), ("uniq", unique), ("wc", count),
    ("which", Find.which), ("whoami", userName), ("yes", repeatLine)]

/-- Programs that start others. -/
def starters : List String := ["dash", "env", "nice", "nohup", "sh", "xargs"]

/-- The folders at the root of every system. -/
def systemFolders : List String :=
  ["boot", "dev", "etc", "home", "media", "mnt", "opt", "proc", "root", "run", "srv", "sys", "tmp",
    "usr", "var"]

/-- The folders of every system that the programs and what they need are in. They have short names
at the root. -/
def sharedFolders : List String := ["bin", "lib", "sbin"]

/-- The line of a system's list of users that tells of its owner. -/
def ownerLine : String := "root:x:0:0:root:/root:/bin/bash\n"

/-- The folders and files that every system has. -/
def systemEntries : List (Location × Entry) :=
  systemFolders.map (fun name => ([name], .folder)) ++
  sharedFolders.flatMap
    (fun name => [([name, "usr"], .folder), ([name], .link ("usr/" ++ name))]) ++
  [(["null", "dev"], .void), (["passwd", "etc"], .file ownerLine.toUTF8 false)] ++
  (starters ++ table.map (·.1)).map fun name => ([name, "bin", "usr"], .file (image name) true)

/-- Where programs are looked for, unless the environment says something else. -/
def searchPath : String := "/usr/local/sbin:/usr/local/bin:/usr/sbin:/usr/bin:/sbin:/bin"

/-- The paths that a bare name may stand for. -/
def candidates (path name : String) : List String :=
  (Text.split (· = ':') path.toList).map fun folder =>
    if folder.isEmpty then name else String.ofList folder ++ "/" ++ name

end Docset.Program
