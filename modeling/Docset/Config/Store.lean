import Docset.Config.Record
import Docset.Error
import Docset.Files.Folders
import Docset.Host
import Docset.Json.Printer

/-!
# The configuration file

The configuration lives in a file below the user's configuration folder. Without
that file everything has its default. The environment overrides what was loaded;
saving writes a configuration as it is.
-/
namespace Docset

/-- The variables that a process sees; of equal names the first one counts. -/
structure Environment where
  bindings : List (String × String) := []
  deriving DecidableEq, Repr

namespace Environment

def get? (env : Environment) (name : String) : Option String := env.bindings.lookup name

/-- Sets a variable, unless there is one of that name. -/
def setDefault (env : Environment) (name value : String) : Environment :=
  if (env.get? name).isSome then env else ⟨env.bindings ++ [(name, value)]⟩

def path? (env : Environment) (name : String) : Option Path := (env.get? name).map Path.mk

end Environment

namespace Config

def Overrides.ofEnvironment (env : Environment) : Overrides where
  storybookDir := env.path? "SHELF_STORYBOOK_DIR"
  sourceRoot := env.path? "SHELF_SOURCE_ROOT"
  outputDir := env.path? "SHELF_OUTPUT_DIR"

/-- The user's configuration folder: the one that the environment names, if that is an absolute
path, and else a folder of the home folder. -/
def folder? (env : Environment) : Option Path := do
  let home ← env.path? "HOME"
  match env.path? "XDG_CONFIG_HOME" with
  | some named => if named.isAbsolute then return named else return home.join ⟨".config"⟩
  | none => return home.join ⟨".config"⟩

/-- The configuration file. -/
def filePath? (env : Environment) : Option Path :=
  (folder? env).map fun folder => (folder.join ⟨"shelf"⟩).join ⟨"config.json"⟩

/-- The configuration of a file, or the default if there is none. -/
def readStored (host : Host) (fs : FileSystem) (file : Path) : Except Error Config :=
  if fs.present file then
    match fs.readText file with
    | .error e => .error (.io e)
    | .ok contents =>
        match parse? contents with
        | some c => .ok c
        | none => .error (.json (host.explain .configuration contents))
  else .ok {}

/-- What is stored, before the environment has its say. -/
def stored (host : Host) (env : Environment) (fs : FileSystem) : Except Error Config :=
  match filePath? env with
  | some file => readStored host fs file
  | none => .ok {}

def load (host : Host) (env : Environment) (fs : FileSystem) : Except Error Config :=
  (stored host env fs).map (·.override (.ofEnvironment env))

def save (env : Environment) (c : Config) : FileAction Error Unit :=
  match filePath? env with
  | none => pure ()
  | some file => do
      match file.parent? with
      | some around => (makeFolders around).mapError .io
      | none => pure ()
      (FileAction.change (·.write file c.toJson.pretty.toUTF8)).mapError .io

end Config

end Docset
