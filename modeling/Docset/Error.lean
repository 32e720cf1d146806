import Docset.Command.Run
import Docset.Config.Basic
import Docset.Scan.Error

/-!
# What can go wrong with an operation

Each error keeps its cause. The wording is here, but for what the host says. Some errors
only repeat another one in a frame of their own; that other one, and what lies behind it,
is listed beneath them when an error is reported in full.
-/
namespace Docset

/-- Why a path does not name a folder to work in. -/
inductive Unresolved where
  | io (cause : IoError)
  | notAFolder
  /-- A tree could not be entered. -/
  | walk (path : Path) (cause : IoError)
  deriving DecidableEq, Repr

def Unresolved.message : Unresolved → String
  | io cause => cause.message
  | notAFolder => "not a directory"
  | walk path cause => "IO error for operation on " ++ path.text ++ ": " ++ cause.message

inductive Error where
  | commandFailed (command : List String) (cause : Command.Failure)
  /-- The commands ran but left no story metadata behind. -/
  | artifactsMissing (path : Path)
  | scan (cause : Scan.Error)
  | io (cause : IoError)
  /-- A document is not JSON or does not have the form expected. -/
  | json (reason : String)
  | unresolved (path : Path) (cause : Unresolved)
  | config (cause : Config.SetError)
  /-- The limit on file sizes does not fit 64 bits. -/
  | sizeOverflow
  deriving DecidableEq, Repr

namespace Error

def message : Error → String
  | commandFailed command cause =>
      "Command \x60" ++ " ".intercalate command ++ "\x60 failed: " ++ cause.message
  | artifactsMissing path => "Could not find story artifacts at " ++ path.text
  | scan cause => "Scan error: " ++ cause.message
  | io cause => "IO error: " ++ cause.message
  | json reason => "JSON error: " ++ reason
  | unresolved path cause => "Failed to resolve path " ++ path.text ++ ": " ++ cause.message
  | config cause => "Configuration error: " ++ cause.message
  | sizeOverflow => "the size limit does not fit 64 bits"

/-- What lies behind an error, from the outside in. -/
def causes : Error → List String
  | scan cause => cause.message :: cause.causes
  | io cause => [cause.message]
  | json reason => [reason]
  | _ => []

end Error

end Docset
