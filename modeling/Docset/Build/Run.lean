import Docset.Build.Inclusion
import Docset.Build.Record
import Docset.Json.Printer
import Docset.Survey.Run

/-!
# Building a docset

A build asks the project's own tools for story metadata. If they fail, or are to be
left alone, the story modules are scanned instead. If neither finds a story, the
manifest has the generic entry alone. With an output folder the manifest is
written there, next to a copy of the built storybook if there is one.
-/
namespace Docset.Build

def metadataFile : String := "stories.json"

def manifestFile : String := "entries.json"

/-- The stories of a metadata file. -/
def readStories (host : Host) (fs : FileSystem) (file : Path) :
    Except Error (List Story.Metadata) :=
  match fs.readText file with
  | .error e => .error (.io e)
  | .ok contents =>
      match Story.parseStories? contents with
      | some stories => .ok stories
      | none => .error (.json (host.explain .stories contents))

/-- Runs a command in a folder, and gives back what it did not read of its input. -/
def runCommand (host : Host) (setting : Command.Setting) (folder : Path)
    (command : List String) : FileAction Error ByteArray :=
  (Command.run host.start setting folder command).mapError (.commandFailed command)

/-- Runs the project's tools and reads the metadata that they leave behind. -/
def extract (host : Host) (setting : Command.Setting) (root : Path) (c : Config) :
    FileAction Error (List Story.Metadata) := do
  let input ← runCommand host setting root c.buildCommand
  discard (runCommand host { setting with input } root c.extractCommand)
  let file := (root.join c.storybookDir).join ⟨metadataFile⟩
  FileAction.inspect fun fs =>
    if fs.present file then readStories host fs file else .error (.artifactsMissing file)

/-- The manifest and its source, where an empty manifest gives way to the generic one. -/
def orDegraded (m : Manifest) (source : Source) : Manifest × Source :=
  if m.isEmpty then (.degraded, .degraded) else (m, source)

/-- The response to extracted stories. -/
def ofStories (stories : List Story.Metadata) : Response :=
  let (entries, source) := orDegraded (.ofStories stories) .external
  { entries, source }

/-- The response to a survey, made because extraction failed or was not tried. -/
def ofReport (report : Survey.Report) (externalError : Option String) : Response :=
  let (entries, source) := orDegraded report.manifest .scanned
  { entries, source, report := some report, externalError }

/-- Surveys the sources of a project. -/
def survey (host : Host) (c : Config) (root : Path) (externalError : Option String) :
    FileAction Error Response :=
  FileAction.inspect fun fs =>
    (Survey.scanFolder host fs c (root.join c.sourceRoot)).map (ofReport · externalError)

/-- Finds the entries of a project. -/
def compose (host : Host) (setting : Command.Setting) (c : Config) (root : Path)
    (skipExternal : Bool) : FileAction Error Response := do
  if skipExternal then survey host c root none
  else
    match ← (extract host setting root c).attempt with
    | .ok stories => return ofStories stories
    | .error e => survey host c root (some e.message)

/-- Writes a manifest into a folder and names the file. -/
def writeManifest (m : Manifest) (output : Path) : FileAction Error Path := do
  let file := output.join ⟨manifestFile⟩
  (FileAction.change (·.write file m.toJson.pretty.toUTF8)).mapError .io
  return file

/-- Writes what was found into an output folder. -/
def deliver (c : Config) (root output : Path) (r : Response) : FileAction Error Response := do
  (makeFolders output).mapError .io
  let file ← writeManifest r.entries output
  let storybook := root.join c.storybookDir
  if ← FileAction.inspect fun fs => .ok (fs.isFolder storybook) then
    let copy ← Inclusion.perform
      { source := storybook
        name := Story.viewerRoot
        additions := [(⟨"index.html"⟩, layoutOverrides)] } output
    return { r with manifestPath := some file, included := some copy }
  else return { r with manifestPath := some file }

/-- Builds the docset of a project. -/
def run (host : Host) (setting : Command.Setting) (c : Config) (request : Request) :
    FileAction Error Response := do
  let root ← FileAction.inspect (Survey.resolveFolder · request.root)
  let response ← compose host setting c root request.skipExternal
  match request.output with
  | some output => deliver c root output response
  | none => return response

end Docset.Build
