import Docset.Survey.Report

/-!
# Build requests and responses

A build is asked for with a project folder and, if anything is to be written, an
output folder. Its response says where the entries came from; parts of a response
that do not apply are left out when it is written down.
-/
namespace Docset.Build

structure Request where
  root : Path
  output : Option Path := none
  skipExternal : Bool := false
  deriving DecidableEq, Repr

/-- Where the entries of a manifest came from. -/
inductive Source where
  /-- The metadata that the project's own tools extracted. -/
  | external
  /-- The story modules, scanned. -/
  | scanned
  /-- Nowhere: there is only the generic entry. -/
  | degraded
  deriving DecidableEq, Repr

structure Response where
  entries : Manifest
  source : Source
  /-- The survey, if story modules were scanned. -/
  report : Option Survey.Report := none
  /-- Why extraction was given up, if it was tried and failed. -/
  externalError : Option String := none
  manifestPath : Option Path := none
  /-- The copy of the built storybook. -/
  included : Option Path := none
  deriving DecidableEq, Repr

namespace Request

def ofJson? (v : Json) : Option Request := do
  match ← v.slots? [["root"], ["output"], ["skip_external"]] with
  | [root, output, skipExternal] =>
      return {
        root := ← root.required Path.ofJson?
        output := ← output.orDefault none (Json.asOption? Path.ofJson?)
        skipExternal := ← skipExternal.orDefault false Json.asBool? }
  | _ => none

def toJson (r : Request) : Json :=
  .object [
    ("root", r.root.toJson),
    ("output", .ofOption Path.toJson r.output),
    ("skip_external", .bool r.skipExternal)]

end Request

namespace Source

def name : Source → String
  | external => "external"
  | scanned => "scanned"
  | degraded => "degraded"

def ofName? (name : String) : Option Source :=
  [external, scanned, degraded].find? (·.name = name)

/-- A source is written as its name, or as an object that holds null under that name. -/
def ofJson? : Json → Option Source
  | .string name => ofName? name
  | .object [(name, .null)] => ofName? name
  | _ => none

def toJson (s : Source) : Json := .string s.name

end Source

namespace Response

def isDegraded (r : Response) : Bool := r.source = .degraded

def entryCount (r : Response) : Nat := r.entries.size

def ofJson? (v : Json) : Option Response := do
  match ← v.slots? [["entries"], ["source"], ["report"], ["external_error"], ["manifest_path"],
      ["included"]] with
  | [entries, source, report, externalError, manifestPath, included] =>
      return {
        entries := ← entries.required Manifest.ofJson?
        source := ← source.required Source.ofJson?
        report := ← report.nullable (Json.asOption? Survey.Report.ofJson?)
        externalError := ← externalError.nullable (Json.asOption? Json.asString?)
        manifestPath := ← manifestPath.nullable (Json.asOption? Path.ofJson?)
        included := ← included.nullable (Json.asOption? Path.ofJson?) }
  | _ => none

/-- A member for a part that is set. -/
def member {α : Type} (name : String) (write : α → Json) (part : Option α) :
    List (String × Json) :=
  part.toList.map fun a => (name, write a)

def toJson (r : Response) : Json :=
  .object ([("entries", r.entries.toJson), ("source", r.source.toJson)] ++
    member "report" Survey.Report.toJson r.report ++
    member "external_error" Json.string r.externalError ++
    member "manifest_path" Path.toJson r.manifestPath ++
    member "included" Path.toJson r.included)

end Response

end Docset.Build
