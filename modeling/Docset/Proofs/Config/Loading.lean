import Docset.Config.Store
import Docset.Proofs.Config.Fields
import Docset.Proofs.Files.Action
import Docset.Proofs.Files.Writing
import Docset.Proofs.Json.Records
import Docset.Proofs.Json.RoundTrip

/-!
# What is stored is loaded

A stored configuration may give any of its fields, in any order, among members that say
nothing to it. Loading takes each field from the environment if that has a say in it, else
from the file if it is given there, else from the defaults. A saved configuration gives all
of its fields, and is loaded as it was saved.
-/
namespace Docset

/-- What the environment puts in the place of a configured value. -/
def Environment.override? (env : Environment) : (k : Config.Key) → Option k.Value
  | .storybookDir => env.path? "SHELF_STORYBOOK_DIR"
  | .sourceRoot => env.path? "SHELF_SOURCE_ROOT"
  | .outputDir => env.path? "SHELF_OUTPUT_DIR"
  | _ => none

namespace Config

variable {host : Host} {S : Key → Bool} {c : Config} {doc : Json} {env later : Environment}
  {fs after : FileSystem} {file : Path}

theorem field_override (c : Config) (env : Environment) (k : Key) :
    (c.override (.ofEnvironment env)).field k = (env.override? k).getD (c.field k) := by
  cases k <;> rfl

/-! ## Stored fields -/

def Key.toJson : (k : Key) → k.Value → Json
  | .storybookDir, p => p.toJson
  | .sourceRoot, p => p.toJson
  | .outputDir, p => p.toJson
  | .storySuffixes, suffixes => .ofStrings suffixes
  | .maxFileSizeKb, n => .ofUInt64 n
  | .buildCommand, words => .ofStrings words
  | .extractCommand, words => .ofStrings words
  | .groupCall, name => .string name
  | .variantMethod, name => .string name
  | .maxInputLength, limit => .ofOption .ofUInt64 limit

/-- A field of `c` that is stored if its key is in `S`. -/
def storedField (S : Key → Bool) (c : Config) (k : Key) : String × Option Json :=
  (k.name, if S k then some (k.toJson (c.field k)) else none)

/-- The keys of the scanner settings, which are stored in a record of their own. -/
def Key.ofScanner : List Key := [.groupCall, .variantMethod, .maxInputLength]

/-- The keys of the other fields. -/
def Key.ofProject : List Key :=
  [.storybookDir, .sourceRoot, .outputDir, .storySuffixes, .maxFileSizeKb, .buildCommand,
    .extractCommand]

/-- Documents that hold of `c` exactly the fields under the keys in `S`, in any order. Members
that are no field may stand among them, on both levels. -/
def Holds (S : Key → Bool) (c : Config) (doc : Json) : Prop :=
  ∃ members scan, doc = .object members ∧
    Json.Gives (Key.ofProject.map (c.storedField S) ++ [("scan", scan)]) members ∧
    match scan with
    | none => ∀ k ∈ Key.ofScanner, S k = false
    | some settings =>
        ∃ inner, settings = .object inner ∧ Json.Gives (Key.ofScanner.map (c.storedField S)) inner

/-- The configuration that has the fields of `c` under the keys in `S`, and else the defaults. -/
def restrict (S : Key → Bool) (c : Config) : Config where
  storybookDir := if S .storybookDir then c.storybookDir else Config.storybookDir {}
  sourceRoot := if S .sourceRoot then c.sourceRoot else Config.sourceRoot {}
  outputDir := if S .outputDir then c.outputDir else Config.outputDir {}
  storySuffixes := if S .storySuffixes then c.storySuffixes else Config.storySuffixes {}
  maxFileSizeKb := if S .maxFileSizeKb then c.maxFileSizeKb else Config.maxFileSizeKb {}
  buildCommand := if S .buildCommand then c.buildCommand else Config.buildCommand {}
  extractCommand := if S .extractCommand then c.extractCommand else Config.extractCommand {}
  scan := {
    groupCall := if S .groupCall then c.scan.groupCall else Scan.Options.groupCall {}
    variantMethod :=
      if S .variantMethod then c.scan.variantMethod else Scan.Options.variantMethod {}
    maxInputLength :=
      if S .maxInputLength then c.scan.maxInputLength else Scan.Options.maxInputLength {} }

theorem field_restrict (S : Key → Bool) (c : Config) (k : Key) :
    (c.restrict S).field k = if S k then c.field k else field {} k := by
  cases k <;> rfl

theorem faithful_limit :
    Json.Faithful (Json.ofOption Json.ofUInt64) (Json.asOption? Json.asUInt64?) :=
  Json.faithful_uint64.option fun _ => nofun

theorem options_ofJson?_of_gives {inner : List (String × Json)}
    (h : Json.Gives (Key.ofScanner.map (c.storedField S)) inner) :
    Scan.Options.ofJson? (.object inner) = some (c.restrict S).scan := by
  have hslots := Json.slots?_of_gives h (by simp [Key.ofScanner, storedField, Key.name])
  simp only [Key.ofScanner, storedField, List.map_cons, List.map_nil, Key.name, Key.toJson,
    field] at hslots
  unfold Scan.Options.ofJson?
  rw [hslots]
  simp only [Option.bind_eq_bind, Option.bind_some]
  rw [Json.Slot.orDefault_ofOption (Json.asString?_string _),
    Json.Slot.orDefault_ofOption (Json.asString?_string _),
    Json.Slot.orDefault_ofOption (faithful_limit.reads _)]
  rfl

theorem ofJson?_of_holds (h : Holds S c doc) : ofJson? doc = some (c.restrict S) := by
  obtain ⟨members, scan, rfl, hgives, hscan⟩ := h
  have hslots := Json.slots?_of_gives hgives (by simp [Key.ofProject, storedField, Key.name])
  simp only [Key.ofProject, storedField, List.map_cons, List.map_nil, Key.name, Key.toJson,
    field, List.cons_append, List.nil_append] at hslots
  have hsettings : (Json.Slot.ofOption scan).orDefault (Config.scan {}) Scan.Options.ofJson? =
      some (c.restrict S).scan := by
    cases scan with
    | none =>
        have hgroup := hscan .groupCall (by simp [Key.ofScanner])
        have hvariant := hscan .variantMethod (by simp [Key.ofScanner])
        have hlimit := hscan .maxInputLength (by simp [Key.ofScanner])
        simp [restrict, hgroup, hvariant, hlimit, Json.Slot.ofOption, Json.Slot.orDefault]
    | some settings =>
        obtain ⟨inner, rfl, hinner⟩ := hscan
        exact options_ofJson?_of_gives hinner
  unfold ofJson?
  rw [hslots]
  simp only [Option.bind_eq_bind, Option.bind_some]
  rw [Json.Slot.orDefault_ofOption (Json.faithful_path.reads _),
    Json.Slot.orDefault_ofOption (Json.faithful_path.reads _),
    Json.Slot.orDefault_ofOption (Json.faithful_path.reads _),
    Json.Slot.orDefault_ofOption (Json.asList?_ofStrings _),
    Json.Slot.orDefault_ofOption (Json.asUInt64?_ofUInt64 _),
    Json.Slot.orDefault_ofOption (Json.asList?_ofStrings _),
    Json.Slot.orDefault_ofOption (Json.asList?_ofStrings _), hsettings]
  rfl

theorem holds_toJson (c : Config) : Holds (fun _ => true) c c.toJson := by
  refine ⟨_, some c.scan.toJson, rfl, ⟨[], by simp, ?_⟩, _, rfl, [], by simp, ?_⟩
  · exact .refl _
  · exact .refl _

theorem ofJson?_toJson (c : Config) : ofJson? c.toJson = some c := by
  rw [ofJson?_of_holds (holds_toJson c)]
  rfl

theorem plain_toJson (c : Config) : Json.Plain c.toJson := by
  have hscan : Json.Plain c.scan.toJson :=
    Json.plain_object ⟨.string _, .string _, faithful_limit.plain c.scan.maxInputLength⟩
  have hstrings := Json.faithful_string.list.plain
  exact Json.plain_object ⟨.string _, .string _, .string _, hstrings _, .natural _, hstrings _,
    hstrings _, hscan⟩

/-! ## The configuration file -/

theorem load_of_readText {contents : String} (hfile : filePath? env = some file)
    (hread : fs.readText file = .ok contents) (hparse : Json.parse? contents = some doc)
    (hdoc : ofJson? doc = some c) : load host env fs = .ok (c.override (.ofEnvironment env)) := by
  have hpresent : fs.present file = true := by
    cases hstat : fs.stat file with
    | ok found => simp [FileSystem.present, hstat, Except.isOk, Except.toBool]
    | error e => simp [FileSystem.readText, FileSystem.read, hstat] at hread
  have hcontents : parse? contents = some c := by
    unfold parse?
    rw [hparse]
    exact hdoc
  unfold load stored readStored
  rw [hfile]
  simp only [hpresent, if_true, hread, hcontents]
  rfl

theorem write_of_save (hfs : fs.WellFormed) (hfile : filePath? env = some file)
    (h : c.save env fs = .ok () after) :
    ∃ mid : FileSystem, mid.WellFormed ∧ mid.write file c.toJson.pretty.toUTF8 = .ok after := by
  unfold save at h
  rw [hfile] at h
  simp only at h
  cases hparent : file.parent? with
  | none =>
      rw [hparent] at h
      exact ⟨fs, hfs, FileAction.change_eq_ok_iff.mp (FileAction.mapError_eq_ok_iff.mp h)⟩
  | some around =>
      rw [hparent] at h
      obtain ⟨u, mid, hmake, h⟩ := FileAction.bind_eq_ok_iff.mp h
      have hgrows := grows_of_makeFolders (FileAction.mapError_eq_ok_iff.mp hmake)
      exact ⟨mid, hgrows.1.wellFormed hfs,
        FileAction.change_eq_ok_iff.mp (FileAction.mapError_eq_ok_iff.mp h)⟩

/-- What was saved is loaded, with what the environment says by then, unless it was lost on the
null device. -/
theorem load_of_save (host : Host) (hfs : fs.WellFormed) (hfile : filePath? env = some file)
    (hlater : filePath? later = some file) (h : c.save env fs = .ok () after) :
    load host later after = .ok (c.override (.ofEnvironment later)) ∨
      ∃ place, after.stat file = .ok (place, .void) := by
  obtain ⟨mid, hmid, hwrite⟩ := write_of_save hfs hfile h
  refine (FileSystem.readText_or_void_of_write hmid hwrite).imp_left fun hread => ?_
  exact load_of_readText hlater hread (Json.parse?_pretty (plain_toJson c)) (ofJson?_toJson c)

theorem override_of_none (h : ∀ k, env.override? k = none) (c : Config) :
    c.override (.ofEnvironment env) = c := by
  apply ext_field
  intro k
  rw [field_override, h]
  rfl

/-- Each field of a loaded configuration comes from the environment if that has it, else from the
file if that holds it, else from the defaults. What is saved is loaded again, unless the path of the
file leads to the null device. -/
theorem load_precedence_and_persistence (host : Host) (c : Config) (env : Environment)
    (fs : FileSystem) (file : Path) (hfile : filePath? env = some file) :
    (∀ S contents doc, fs.readText file = .ok contents → Json.parse? contents = some doc →
      Holds S c doc →
      ∃ loaded, load host env fs = .ok loaded ∧
        ∀ k, loaded.field k = (env.override? k).getD (if S k then c.field k else field {} k)) ∧
    ∀ after, fs.WellFormed → c.save env fs = .ok () after → (∀ k, env.override? k = none) →
      load host env after = .ok c ∨ ∃ place, after.stat file = .ok (place, .void) := by
  constructor
  · intro S contents doc hread hparse hholds
    refine ⟨_, load_of_readText hfile hread hparse (ofJson?_of_holds hholds), ?_⟩
    intro k
    rw [field_override, field_restrict]
  · intro after hfs hsave hnone
    have hload := load_of_save host hfs hfile hfile hsave
    rwa [override_of_none hnone] at hload

def homeWith (contents : String) : FileSystem :=
  { entries :=
      [(["h"], .folder), ([".config", "h"], .folder), (["shelf", ".config", "h"], .folder),
        (["config.json", "shelf", ".config", "h"], .file contents.toUTF8 false)]
    here := [] }

/-- A configuration with two fields that are not the default ones. -/
def unlimitedConfig : Config := { outputDir := ⟨"out"⟩, scan := { maxInputLength := none } }

/-- A document with those two fields, the limit being null, and with members that are no field. -/
def unlimitedDocument : Json :=
  .object [("scan", .object [("max_input_len", .null), ("color", .bool true)]),
    ("theme", .array []), ("output_dir", .string "out")]

theorem load_precedence_and_persistence_unlimited :
    (∃ loaded, load .bare ⟨[("HOME", "/h"), ("SHELF_SOURCE_ROOT", "src")]⟩
        (homeWith unlimitedDocument.pretty) = .ok loaded ∧
      loaded =
        { sourceRoot := ⟨"src"⟩, outputDir := ⟨"out"⟩, scan := { maxInputLength := none } }) ∧
    ∃ after, unlimitedConfig.save ⟨[("HOME", "/h")]⟩ (homeWith "") = .ok () after ∧
      load .bare ⟨[("HOME", "/h")]⟩ after = .ok unlimitedConfig := by
  constructor
  · obtain ⟨hload, -⟩ := load_precedence_and_persistence .bare unlimitedConfig
      ⟨[("HOME", "/h"), ("SHELF_SOURCE_ROOT", "src")]⟩ (homeWith unlimitedDocument.pretty)
      ⟨"/h/.config/shelf/config.json"⟩ (by decide +kernel)
    have hread : ((homeWith unlimitedDocument.pretty).readText
        ⟨"/h/.config/shelf/config.json"⟩).toOption = some unlimitedDocument.pretty := by
      decide +kernel
    have hplain : Json.Plain unlimitedDocument := by
      apply Json.Plain.object
      simp only [List.forall_mem_cons, List.not_mem_nil, false_imp_iff, implies_true, and_true]
      refine ⟨.object ?_, .array (by simp), .string _⟩
      simp only [List.forall_mem_cons, List.not_mem_nil, false_imp_iff, implies_true, and_true]
      exact ⟨.null, .bool _⟩
    have hholds : Holds (fun k => k = .outputDir || k = .maxInputLength) unlimitedConfig
        unlimitedDocument := by
      refine ⟨_, some (.object [("max_input_len", .null), ("color", .bool true)]), rfl,
        ⟨[("theme", .array [])], by simp [storedField, Key.ofProject, Key.name], ?_⟩, _, rfl,
        [("color", .bool true)], by simp [storedField, Key.ofScanner, Key.name], ?_⟩
      · exact List.perm_append_singleton ("output_dir", Json.string "out") [_, _]
      · exact .refl _
    obtain ⟨loaded, hok, hfield⟩ := hload _ _ _ (FileSystem.except_toOption_eq_some_iff.mp hread)
      (Json.parse?_pretty hplain) hholds
    refine ⟨loaded, hok, ext_field fun k => ?_⟩
    rw [hfield]
    cases k <;> rfl
  · have hsave : ((unlimitedConfig.save ⟨[("HOME", "/h")]⟩).outcome? (homeWith "")).any
        (fun saved => saved.2.isFile ⟨"/h/.config/shelf/config.json"⟩) = true := by
      decide +kernel
    obtain ⟨⟨⟨⟩, after⟩, hafter, hkept⟩ := (Option.any_eq_true _ _).mp hsave
    have hok := FileAction.outcome?_eq_some_iff.mp hafter
    obtain ⟨-, hpersist⟩ := load_precedence_and_persistence .bare unlimitedConfig
      ⟨[("HOME", "/h")]⟩ (homeWith "") ⟨"/h/.config/shelf/config.json"⟩ (by decide +kernel)
    have hnone : ∀ k, (⟨[("HOME", "/h")]⟩ : Environment).override? k = none := by
      intro k
      cases k <;> rfl
    refine ⟨after, hok, ?_⟩
    rcases hpersist after ⟨by decide +kernel, by decide +kernel⟩ hok hnone with hload | ⟨l, hvoid⟩
    · exact hload
    · exact absurd hvoid (FileSystem.not_void_of_isFile hkept)

end Config

end Docset
