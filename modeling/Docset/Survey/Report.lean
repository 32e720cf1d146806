import Docset.Config.Record
import Docset.Manifest.Basic

/-!
# Survey reports

A survey scans many story modules. Its report has the groups of every module that
scanned cleanly and the error of every other one, both in the order in which the
modules were given, and counts the bytes of the clean ones.
-/
namespace Docset.Survey

structure ScannedFile where
  path : Path
  groups : List Story.Group
  deriving DecidableEq, Repr

structure Failure where
  path : Path
  error : String
  deriving DecidableEq, Repr

structure Report where
  files : List ScannedFile := []
  failures : List Failure := []
  bytesScanned : UInt64 := 0
  deriving DecidableEq, Repr

/-- A file, or a folder to search for story modules. -/
structure Request where
  path : Path
  deriving DecidableEq, Repr

structure Response where
  path : Path
  report : Report
  deriving DecidableEq, Repr

namespace ScannedFile

def ofJson? (v : Json) : Option ScannedFile := do
  match ← v.slots? [["path"], ["groups"]] with
  | [path, groups] =>
      return {
        path := ← path.required Path.ofJson?
        groups := ← groups.required (Json.asList? Story.Group.ofJson?) }
  | _ => none

def toJson (f : ScannedFile) : Json :=
  .object [("path", f.path.toJson), ("groups", .array (f.groups.map Story.Group.toJson))]

end ScannedFile

namespace Failure

def ofJson? (v : Json) : Option Failure := do
  match ← v.slots? [["path"], ["error"]] with
  | [path, error] =>
      return { path := ← path.required Path.ofJson?, error := ← error.required Json.asString? }
  | _ => none

def toJson (f : Failure) : Json := .object [("path", f.path.toJson), ("error", .string f.error)]

end Failure

namespace Report

/-- All groups of all modules, in order. -/
def groups (r : Report) : List Story.Group := r.files.flatMap (·.groups)

def groupCount (r : Report) : Nat := r.groups.length

def variantCount (r : Report) : Nat := (r.groups.flatMap (·.variants)).length

/-- The manifest of everything that was found. -/
def manifest (r : Report) : Manifest := .ofGroups r.groups

def ofJson? (v : Json) : Option Report := do
  match ← v.slots? [["files"], ["failures"], ["bytes_scanned"]] with
  | [files, failures, bytesScanned] =>
      return {
        files := ← files.required (Json.asList? ScannedFile.ofJson?)
        failures := ← failures.required (Json.asList? Failure.ofJson?)
        bytesScanned := ← bytesScanned.required Json.asUInt64? }
  | _ => none

def toJson (r : Report) : Json :=
  .object [
    ("files", .array (r.files.map ScannedFile.toJson)),
    ("failures", .array (r.failures.map Failure.toJson)),
    ("bytes_scanned", .ofUInt64 r.bytesScanned)]

end Report

namespace Request

def ofJson? (v : Json) : Option Request := do
  match ← v.slots? [["path"]] with
  | [path] => return { path := ← path.required Path.ofJson? }
  | _ => none

def toJson (r : Request) : Json := .object [("path", r.path.toJson)]

end Request

namespace Response

def ofJson? (v : Json) : Option Response := do
  match ← v.slots? [["path"], ["report"]] with
  | [path, report] =>
      return {
        path := ← path.required Path.ofJson?
        report := ← report.required Report.ofJson? }
  | _ => none

def toJson (r : Response) : Json :=
  .object [("path", r.path.toJson), ("report", r.report.toJson)]

end Response

end Docset.Survey
