import Docset.Files.Path
import Docset.Json.Record
import Docset.Scan.Options
import Docset.Text.Words

/-!
# Configuration

What a build needs to know about a project, with defaults for everything. A value
is addressed by its key as one line of text; a line that does not fit its key is not
written. Three paths can be overridden from the environment.
-/
namespace Docset

structure Config where
  /-- Folder of the project in which its own tools put the built storybook. -/
  storybookDir : Path := ⟨"storybook-static"⟩
  /-- Folder of the project that is searched for story modules. -/
  sourceRoot : Path := ⟨"."⟩
  /-- Where docsets are written. -/
  outputDir : Path := ⟨"docset"⟩
  /-- Endings of the names of story modules. -/
  storySuffixes : List String := [".stories.js", ".stories.jsx", ".stories.ts", ".stories.tsx"]
  /-- Larger story modules, in units of 1024 bytes, are passed over. -/
  maxFileSizeKb : UInt64 := 512
  buildCommand : List String :=
    Text.words "node node_modules/@storybook/react/dist/server/build.js -s public"
  extractCommand : List String :=
    Text.words "node node_modules/@storybook/cli/bin/index.js extract"
  scan : Scan.Options := {}
  deriving DecidableEq, Repr

namespace Config

instance : Inhabited Config := ⟨{}⟩

/-- The names under which values are read and written. -/
inductive Key where
  | storybookDir
  | sourceRoot
  | outputDir
  | storySuffixes
  | maxFileSizeKb
  | buildCommand
  | extractCommand
  | groupCall
  | variantMethod
  | maxInputLength
  deriving DecidableEq, Repr

namespace Key

/-- All keys, in the order in which they are listed. -/
def all : List Key :=
  [storybookDir, sourceRoot, outputDir, storySuffixes, maxFileSizeKb, buildCommand,
    extractCommand, groupCall, variantMethod, maxInputLength]

def name : Key → String
  | storybookDir => "storybook_dir"
  | sourceRoot => "source_root"
  | outputDir => "output_dir"
  | storySuffixes => "story_suffixes"
  | maxFileSizeKb => "max_file_size_kb"
  | buildCommand => "build_command"
  | extractCommand => "extract_command"
  | groupCall => "group_call"
  | variantMethod => "variant_method"
  | maxInputLength => "max_input_len"

def ofName? (name : String) : Option Key := all.find? (·.name = name)

end Key

/-- Why a value was not written. -/
inductive SetError where
  | unknownKey (name : String)
  | invalidNumber (value : String)
  | emptyValue (name : String)
  deriving DecidableEq, Repr

def SetError.message : SetError → String
  | unknownKey name => "Unknown config key: " ++ name
  | invalidNumber value => "Invalid number: " ++ value
  | emptyValue name => name ++ " cannot be empty"

/-- The value of a key as a line of text. -/
def get (c : Config) : Key → String
  | .storybookDir => c.storybookDir.text
  | .sourceRoot => c.sourceRoot.text
  | .outputDir => c.outputDir.text
  | .storySuffixes => ",".intercalate c.storySuffixes
  | .maxFileSizeKb => toString c.maxFileSizeKb.toNat
  | .buildCommand => " ".intercalate c.buildCommand
  | .extractCommand => " ".intercalate c.extractCommand
  | .groupCall => c.scan.groupCall
  | .variantMethod => c.scan.variantMethod
  | .maxInputLength =>
      match c.scan.maxInputLength with
      | some n => toString n.toNat
      | none => "none"

def get? (c : Config) (name : String) : Option String := (Key.ofName? name).map c.get

def readNumber (value : String) : Except SetError UInt64 :=
  match Text.readUInt64? value with
  | some n => .ok n
  | none => .error (.invalidNumber value)

/-- A trimmed value that has to be there. -/
def readName (key : Key) (value : String) : Except SetError String :=
  let trimmed := Text.trimString value
  if trimmed.isEmpty then .error (.emptyValue key.name) else .ok trimmed

/-- A step that changes a configuration. What it changed before an error stays changed. -/
abbrev Change := EStateM SetError Config Unit

/-- Writes what a line of text says into the value of a key. -/
def set (key : Key) (value : String) : Change :=
  match key with
  | .storybookDir => modify fun c => { c with storybookDir := ⟨value⟩ }
  | .sourceRoot => modify fun c => { c with sourceRoot := ⟨value⟩ }
  | .outputDir => modify fun c => { c with outputDir := ⟨value⟩ }
  | .storySuffixes => modify fun c => { c with storySuffixes := Text.items value }
  | .maxFileSizeKb => do
      let n ← MonadExcept.ofExcept (readNumber value)
      modify fun c => { c with maxFileSizeKb := n }
  | .buildCommand => modify fun c => { c with buildCommand := Text.words value }
  | .extractCommand => modify fun c => { c with extractCommand := Text.words value }
  | .groupCall => do
      let name ← MonadExcept.ofExcept (readName key value)
      modify fun c => { c with scan := { c.scan with groupCall := name } }
  | .variantMethod => do
      let name ← MonadExcept.ofExcept (readName key value)
      modify fun c => { c with scan := { c.scan with variantMethod := name } }
  | .maxInputLength =>
      if value = "none" ∨ value = "" then
        modify fun c => { c with scan := { c.scan with maxInputLength := none } }
      else do
        let n ← MonadExcept.ofExcept (readNumber value)
        modify fun c => { c with scan := { c.scan with maxInputLength := some n } }

/-- `set` for a key given by name. -/
def setNamed (name value : String) : Change :=
  match Key.ofName? name with
  | some key => set key value
  | none => throw (.unknownKey name)

/-- The size limit in bytes, if it fits 64 bits. -/
def maxFileSize? (c : Config) : Option UInt64 :=
  if c.maxFileSizeKb.toNat * 1024 < UInt64.size then some (c.maxFileSizeKb * 1024) else none

/-- Paths that the environment puts in place of configured ones. -/
structure Overrides where
  storybookDir : Option Path := none
  sourceRoot : Option Path := none
  outputDir : Option Path := none
  deriving DecidableEq, Repr

def override (c : Config) (o : Overrides) : Config :=
  { c with
    storybookDir := o.storybookDir.getD c.storybookDir
    sourceRoot := o.sourceRoot.getD c.sourceRoot
    outputDir := o.outputDir.getD c.outputDir }

end Config

end Docset
