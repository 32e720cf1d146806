import Docset.Error
import Docset.Files.Folders
import Docset.Host
import Docset.Survey.Report

/-!
# Surveying story modules

A module that cannot be read or scanned is reported and does not keep the others
from being scanned. A folder is searched for the modules that the configuration
describes; the folder of the built storybook is left out by name. Nothing is scanned
if the calls that the configuration names cannot be searched for.
-/
namespace Docset

/-- The files that a configuration counts as story modules; undefined if its size limit does not
fit 64 bits. -/
def Config.filter? (c : Config) : Option FileFilter :=
  c.maxFileSize?.map fun limit =>
    { suffixes := c.storySuffixes
      exclude := c.storybookDir.fileName?.toList
      maxSize := some limit }

namespace Survey

/-- The size and the groups of a module, or the text of the error that it gave. -/
def examine (fs : FileSystem) (o : Scan.Options) (p : Path) :
    Except String (Nat × List Story.Group) :=
  match fs.readText p with
  | .error e => .error e.message
  | .ok text =>
      match Scan.scan o text with
      | .error e => .error e.message
      | .ok groups => .ok (text.utf8ByteSize, groups)

/-- Adds what was found about a module to a report. -/
def Report.add (r : Report) (p : Path) : Except String (Nat × List Story.Group) → Report
  | .ok (size, groups) =>
      { r with
        files := r.files ++ [⟨p, groups⟩]
        bytesScanned := r.bytesScanned + UInt64.ofNat size }
  | .error e => { r with failures := r.failures ++ [⟨p, e⟩] }

/-- Scans modules one by one. -/
def scanFiles (fs : FileSystem) (o : Scan.Options) (paths : List Path) : Report :=
  paths.foldl (fun r p => r.add p (examine fs o p)) {}

/-- Makes the scanner of a configuration ready. -/
def prepare (host : Host) (c : Config) : Except Error Unit :=
  (c.scan.compile host.compile).mapError .scan

/-- Scans the story modules of a folder. -/
def scanFolder (host : Host) (fs : FileSystem) (c : Config) (folder : Path) :
    Except Error Report :=
  match c.filter? with
  | some filter =>
      (prepare host c).map fun _ => scanFiles fs c.scan (fs.findFiles filter folder)
  | none => .error .sizeOverflow

/-- The absolute path of a folder. -/
def resolveFolder (fs : FileSystem) (p : Path) : Except Error Path :=
  match fs.canonicalize p with
  | .error e => .error (.unresolved p (.io e))
  | .ok resolved =>
      if fs.isFolder resolved then .ok resolved else .error (.unresolved p .notAFolder)

/-- Scans one module or the story modules of a folder. -/
def run (host : Host) (fs : FileSystem) (c : Config) (request : Request) :
    Except Error Response :=
  if fs.isFile request.path then
    (prepare host c).map fun _ => ⟨request.path, scanFiles fs c.scan [request.path]⟩
  else
    match resolveFolder fs request.path with
    | .error e => .error e
    | .ok folder => (scanFolder host fs c folder).map (⟨request.path, ·⟩)

end Survey

end Docset
