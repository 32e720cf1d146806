import Docset.Config.Basic
import Docset.Json.Reader

/-!
# Stored configurations

A configuration is stored as a record. Every field of it may be left out, also
inside the scanner settings, and then has its default. A limit of null is no limit.
-/
namespace Docset

namespace Scan.Options

def ofJson? (v : Json) : Option Options := do
  match ← v.slots? [["group_call"], ["variant_method"], ["max_input_len"]] with
  | [groupCall, variantMethod, maxInputLength] =>
      let default : Options := {}
      return {
        groupCall := ← groupCall.orDefault default.groupCall Json.asString?
        variantMethod := ← variantMethod.orDefault default.variantMethod Json.asString?
        maxInputLength := ←
          maxInputLength.orDefault default.maxInputLength (Json.asOption? Json.asUInt64?) }
  | _ => none

def toJson (o : Options) : Json :=
  .object [
    ("group_call", .string o.groupCall),
    ("variant_method", .string o.variantMethod),
    ("max_input_len", .ofOption .ofUInt64 o.maxInputLength)]

end Scan.Options

namespace Path

def ofJson? (v : Json) : Option Path := v.asString?.map Path.mk

def toJson (p : Path) : Json := .string p.text

end Path

namespace Config

def ofJson? (v : Json) : Option Config := do
  match ← v.slots? [["storybook_dir"], ["source_root"], ["output_dir"], ["story_suffixes"],
      ["max_file_size_kb"], ["build_command"], ["extract_command"], ["scan"]] with
  | [storybookDir, sourceRoot, outputDir, storySuffixes, maxFileSizeKb, buildCommand,
      extractCommand, scan] =>
      let default : Config := {}
      let strings? := Json.asList? Json.asString?
      return {
        storybookDir := ← storybookDir.orDefault default.storybookDir Path.ofJson?
        sourceRoot := ← sourceRoot.orDefault default.sourceRoot Path.ofJson?
        outputDir := ← outputDir.orDefault default.outputDir Path.ofJson?
        storySuffixes := ← storySuffixes.orDefault default.storySuffixes strings?
        maxFileSizeKb := ← maxFileSizeKb.orDefault default.maxFileSizeKb Json.asUInt64?
        buildCommand := ← buildCommand.orDefault default.buildCommand strings?
        extractCommand := ← extractCommand.orDefault default.extractCommand strings?
        scan := ← scan.orDefault default.scan Scan.Options.ofJson? }
  | _ => none

def toJson (c : Config) : Json :=
  .object [
    ("storybook_dir", c.storybookDir.toJson),
    ("source_root", c.sourceRoot.toJson),
    ("output_dir", c.outputDir.toJson),
    ("story_suffixes", .ofStrings c.storySuffixes),
    ("max_file_size_kb", .ofUInt64 c.maxFileSizeKb),
    ("build_command", .ofStrings c.buildCommand),
    ("extract_command", .ofStrings c.extractCommand),
    ("scan", c.scan.toJson)]

/-- The configuration stored in a document. -/
def parse? (contents : String) : Option Config := do ofJson? (← Json.parse? contents)

end Config

end Docset
