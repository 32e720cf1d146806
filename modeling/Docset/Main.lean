import Docset.Cli.Run
import Docset.Shell.Host

/-!
# The program

Everything the program decides is decided on a picture of the file system. This
layer takes the picture, runs the program on it, and carries the changes out. The
picture shows the current folder, the folders that the command line names, the
configuration file and environment files in the folders around the current one.
-/
namespace Docset.Disk

/-- The place that an absolute path names. -/
def placeOf (path : String) : Location :=
  ((Path.mk path).pieces.filter (· ≠ "")).reverse

/-- The folders around a place and the place itself, from the outside in. -/
def chain : Location → List Location
  | [] => []
  | name :: around => chain around ++ [name :: around]

/-- What stands at a place on disk. -/
def entryAt (place : Location) : IO (Option Entry) := do
  try
    let path := place.path.text
    let real ← IO.FS.realPath path
    if real.toString ≠ path then return some (.link real.toString)
    let info ← real.metadata
    match info.type with
    | .dir => return some .folder
    | .file => return some (.file (← IO.FS.readBinFile path) false)
    | _ => return none
  catch _ => return none

/-- A picture of the folders around a place. -/
def around (place : Location) : IO (List (Location × Entry)) := do
  let entries ← (chain place.tail).mapM fun l => return (l, ← entryAt l)
  return entries.filterMap fun (l, e) => e.map (l, ·)

/-- A picture of a place and everything below it. -/
partial def below (place : Location) : IO (List (Location × Entry)) := do
  match ← entryAt place with
  | none => return []
  | some .folder =>
      let items ← (← IO.FS.realPath place.path.text).readDir
      let inner ← items.toList.mapM fun item => below (item.fileName :: place)
      return (place, .folder) :: inner.flatten
  | some entry => return [(place, entry)]

/-- Adds places to a picture that does not show them yet. -/
def merge (fs : FileSystem) (entries : List (Location × Entry)) : FileSystem :=
  entries.foldl (fun fs p => if (fs.get? p.1).isSome then fs else fs.put p.1 p.2) fs

/-- The paths of a command that are read as a whole. -/
def sources : Cli.Command → List Path
  | .build path _ _ => [path]
  | .scan path _ => [path]
  | .compose path _ _ _ => [path]
  | _ => []

/-- The paths of a command that are written to. -/
def targets : Cli.Command → List Path
  | .build _ output _ => output.toList
  | .compose _ output _ _ => output.toList
  | _ => []

def variableNames : List String :=
  ["HOME", "XDG_CONFIG_HOME", "SHELF_STORYBOOK_DIR", "SHELF_SOURCE_ROOT", "SHELF_OUTPUT_DIR"]

def environment : IO Environment := do
  let values ← variableNames.mapM fun name => return (name, ← IO.getEnv name)
  return ⟨values.filterMap fun (name, value) => value.map (name, ·)⟩

/-- The picture on which a command is run. -/
def picture (env : Environment) (here : Location) (command : Cli.Command) : IO FileSystem := do
  let absolute (p : Path) : Location := placeOf (here.path.join p).text
  let mut fs : FileSystem := { entries := [], here }
  fs := merge fs ((← around here) ++ (← below here))
  for l in chain here.tail do
    let file := ".env" :: l
    fs := merge fs ((← entryAt file).toList.map (file, ·))
  for p in ((Cli.EnvFile.load? env fs).bind Config.filePath?).toList do
    let file := placeOf p.text
    fs := merge fs ((← around file) ++ (← below file))
  for p in sources command do
    fs := merge fs ((← around (absolute p)) ++ (← below (absolute p)))
  for p in targets command do
    fs := merge fs (← around (absolute p))
  return merge fs Program.systemEntries

/-- Makes the disk agree with what has become of the picture. -/
def carryOut (before after : FileSystem) : IO Unit := do
  for (place, entry) in after.entries do
    if before.get? place ≠ some entry then
      match entry with
      | .folder => IO.FS.createDirAll place.path.text
      | .file bytes _ => IO.FS.writeBinFile place.path.text bytes
      | _ => pure ()
  for (place, entry) in before.entries.reverse do
    if (after.get? place).isNone then
      match entry with
      | .folder => IO.FS.removeDirAll place.path.text
      | _ => IO.FS.removeFile place.path.text

/-- All of standard input. -/
partial def readAll (input : IO.FS.Stream) (seen : ByteArray) : IO ByteArray := do
  let chunk ← input.read 65536
  if chunk.isEmpty then return seen else readAll input (seen ++ chunk)

/-- What a command gets to read from standard input. -/
def inputFor : Cli.Command → IO ByteArray
  | .scan path _ => do
      if path.same ⟨"-"⟩ then readAll (← IO.getStdin) .empty else return .empty
  | .build _ _ skipExternal => do
      let input ← IO.getStdin
      if skipExternal || (← input.isTty) then return .empty else readAll input .empty
  | _ => return .empty

def run (args : List String) : IO Cli.Outcome := do
  match Cli.Invocation.read args with
  | .error _ => return (Cli.run Shell.host {} args .empty { entries := [], here := [] }).1
  | .ok invocation =>
      let env ← environment
      let here := placeOf (← IO.currentDir).toString
      let before ← picture env here invocation.command
      let (outcome, after) := Cli.run Shell.host env args (← inputFor invocation.command) before
      carryOut before after
      return outcome

end Docset.Disk

def main (args : List String) : IO UInt32 := do
  let outcome ← Docset.Disk.run args
  IO.print outcome.stdout
  for report in outcome.report.toList do
    IO.eprintln report
  return UInt32.ofNat outcome.code
