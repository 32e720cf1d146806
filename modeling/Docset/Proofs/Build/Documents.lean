import Docset.Build.Run
import Docset.Proofs.Files.Action
import Docset.Proofs.Files.Writing
import Docset.Proofs.Json.Records
import Docset.Proofs.KeyMap

/-!
# Documents that leave the program

Stories, manifests, reports, requests and responses are written as documents, and each is
read back as the value it was written from. For a record this takes two facts: of what is
written nothing is lost in print, and the reader finds every part under the name that the
writer gave it. Both are passed on from the parts to the whole, through lists, through
parts that may be unset and through maps. A part that is unset is written as null by a
request and left out by a response, and either way it is read as unset.
-/
namespace Docset

/-! ## Stories and manifests -/

namespace Story

theorem Group.faithful : Json.Faithful Group.toJson Group.ofJson? where
  reads g := by
    have hvariants := Json.faithful_string.list.reads g.variants
    have hslots : g.toJson.slots? [["name"], ["variants"]] =
        some [.given (.string g.name), .given (.array (g.variants.map .string))] := rfl
    simp only [ofJson?, hslots, Option.bind_eq_bind, Option.bind_some, Json.Slot.required,
      hvariants]
    rfl
  plain g := Json.plain_object ⟨.string _, Json.faithful_string.list.plain g.variants⟩

theorem Metadata.faithful : Json.Faithful Metadata.toJson Metadata.ofJson? where
  reads _ := rfl
  plain _ := Json.plain_object ⟨.string _, .string _, .string _⟩

end Story

theorem Manifest.faithful : Json.Faithful Manifest.toJson Manifest.ofJson? where
  reads m := by
    have hentries := Json.asMembers?_map Json.faithful_string.reads m.entries.pairs
    have hslots : m.toJson.slots? [["Component"]] =
        some [.given (.object (m.entries.pairs.map fun p => (p.1, .string p.2)))] := rfl
    simp only [ofJson?, hslots, Option.bind_eq_bind, Option.bind_some, Json.Slot.orDefault,
      hentries, KeyMap.ofList_pairs]
    rfl
  plain m := by
    refine Json.plain_object (Json.Plain.object ?_)
    intro e he
    obtain ⟨p, -, rfl⟩ := List.mem_map.mp he
    exact .string p.2

/-! ## Reports, requests and responses -/

namespace Survey

theorem ScannedFile.faithful : Json.Faithful ScannedFile.toJson ScannedFile.ofJson? where
  reads f := by
    have hgroups := Story.Group.faithful.list.reads f.groups
    have hslots : f.toJson.slots? [["path"], ["groups"]] =
        some [.given f.path.toJson, .given (.array (f.groups.map Story.Group.toJson))] := rfl
    simp only [ofJson?, hslots, Option.bind_eq_bind, Option.bind_some, Json.Slot.required,
      Json.faithful_path.reads, hgroups]
    rfl
  plain f := Json.plain_object
    ⟨Json.faithful_path.plain f.path, Story.Group.faithful.list.plain f.groups⟩

theorem Failure.faithful : Json.Faithful Failure.toJson Failure.ofJson? where
  reads _ := rfl
  plain f := Json.plain_object ⟨Json.faithful_path.plain f.path, .string f.error⟩

theorem Report.faithful : Json.Faithful Report.toJson Report.ofJson? where
  reads r := by
    have hfiles := ScannedFile.faithful.list.reads r.files
    have hfailures := Failure.faithful.list.reads r.failures
    have hslots : r.toJson.slots? [["files"], ["failures"], ["bytes_scanned"]] =
        some [.given (.array (r.files.map ScannedFile.toJson)),
          .given (.array (r.failures.map Failure.toJson)), .given (.ofUInt64 r.bytesScanned)] := rfl
    simp only [ofJson?, hslots, Option.bind_eq_bind, Option.bind_some, Json.Slot.required, hfiles,
      hfailures, Json.faithful_uint64.reads]
    rfl
  plain r := Json.plain_object ⟨ScannedFile.faithful.list.plain r.files,
    Failure.faithful.list.plain r.failures, Json.faithful_uint64.plain r.bytesScanned⟩

theorem Request.faithful : Json.Faithful Request.toJson Request.ofJson? where
  reads _ := rfl
  plain r := Json.plain_object (Json.faithful_path.plain r.path)

theorem Response.faithful : Json.Faithful Response.toJson Response.ofJson? where
  reads r := by
    have hslots : r.toJson.slots? [["path"], ["report"]] =
        some [.given r.path.toJson, .given r.report.toJson] := rfl
    simp only [ofJson?, hslots, Option.bind_eq_bind, Option.bind_some, Json.Slot.required,
      Json.faithful_path.reads, Report.faithful.reads]
    rfl
  plain r := Json.plain_object
    ⟨Json.faithful_path.plain r.path, Report.faithful.plain r.report⟩

end Survey

namespace Build

theorem Source.faithful : Json.Faithful Source.toJson Source.ofJson? where
  reads s := by cases s <;> rfl
  plain s := .string s.name

theorem faithful_output : Json.Faithful (Json.ofOption Path.toJson) (Json.asOption? Path.ofJson?) :=
  Json.faithful_path.option fun _ => nofun

theorem Request.faithful : Json.Faithful Request.toJson Request.ofJson? where
  reads r := by
    have hslots : r.toJson.slots? [["root"], ["output"], ["skip_external"]] =
        some [.given r.root.toJson, .given (.ofOption Path.toJson r.output),
          .given (.bool r.skipExternal)] := rfl
    simp only [ofJson?, hslots, Option.bind_eq_bind, Option.bind_some, Json.Slot.required,
      Json.Slot.orDefault, Json.faithful_path.reads, faithful_output.reads]
    rfl
  plain r := Json.plain_object
    ⟨Json.faithful_path.plain r.root, faithful_output.plain r.output, .bool r.skipExternal⟩

theorem Response.slots?_toJson (r : Response) :
    r.toJson.slots? [["entries"], ["source"], ["report"], ["external_error"], ["manifest_path"],
        ["included"]] =
      some [.given r.entries.toJson, .given r.source.toJson,
        .ofOption (r.report.map Survey.Report.toJson), .ofOption (r.externalError.map .string),
        .ofOption (r.manifestPath.map Path.toJson), .ofOption (r.included.map Path.toJson)] := by
  obtain ⟨entries, source, report, externalError, manifestPath, included⟩ := r
  cases report <;> cases externalError <;> cases manifestPath <;> cases included <;> rfl

theorem Response.plain_member {α : Type} {write : α → Json} {read? : Json → Option α}
    (h : Json.Faithful write read?) (name : String) (part : Option α) :
    ∀ m ∈ member name write part, Json.Plain m.2 := by
  intro m hm
  obtain ⟨a, -, rfl⟩ := List.mem_map.mp hm
  exact h.plain a

theorem Response.faithful : Json.Faithful Response.toJson Response.ofJson? where
  reads r := by
    simp only [ofJson?, slots?_toJson, Option.bind_eq_bind, Option.bind_some, Json.Slot.required,
      Manifest.faithful.reads, Source.faithful.reads,
      Survey.Report.faithful.nullable_ofOption (fun _ => nofun),
      Json.faithful_string.nullable_ofOption (fun _ => nofun),
      Json.faithful_path.nullable_ofOption (fun _ => nofun)]
    rfl
  plain r := by
    apply Json.Plain.object
    simp only [List.forall_mem_append, List.forall_mem_cons, List.not_mem_nil, false_imp_iff,
      implies_true, and_true]
    exact ⟨⟨⟨⟨⟨Manifest.faithful.plain r.entries, Source.faithful.plain r.source⟩,
      plain_member Survey.Report.faithful _ _⟩, plain_member Json.faithful_string _ _⟩,
      plain_member Json.faithful_path _ _⟩, plain_member Json.faithful_path _ _⟩

/-! ## The manifest file -/

variable {fs after : FileSystem} {m : Manifest} {output file : Path}

theorem write_of_writeManifest (h : writeManifest m output fs = .ok file after) :
    file = output.join ⟨manifestFile⟩ ∧
      fs.write file m.toJson.pretty.toUTF8 = .ok after := by
  unfold writeManifest at h
  obtain ⟨u, mid, hwrite, h⟩ := FileAction.bind_eq_ok_iff.mp h
  obtain ⟨rfl, rfl⟩ := FileAction.pure_eq_ok_iff.mp h
  exact ⟨rfl, FileAction.change_eq_ok_iff.mp (FileAction.mapError_eq_ok_iff.mp hwrite)⟩

theorem stored_of_writeManifest (hfs : fs.WellFormed)
    (h : writeManifest m output fs = .ok file after) :
    ∃ contents : String, fs.write file contents.toUTF8 = .ok after ∧
      Json.decode? Manifest.ofJson? contents = some m ∧
      (after.readText file = .ok contents ∨ ∃ place, after.stat file = .ok (place, .void)) := by
  obtain ⟨-, hwrite⟩ := write_of_writeManifest h
  exact ⟨_, hwrite, Manifest.faithful.decode?_pretty m,
    FileSystem.readText_or_void_of_write hfs hwrite⟩

/-- Of every kind of document that leaves the program, the printed text decodes to the value that
it was printed from. So does what is written into the manifest file, and that is what the file
holds, unless its path leads to the null device. -/
theorem documents_read_back :
    (∀ g : Story.Group, Json.decode? Story.Group.ofJson? g.toJson.pretty = some g) ∧
    (∀ s : Story.Metadata, Json.decode? Story.Metadata.ofJson? s.toJson.pretty = some s) ∧
    (∀ m : Manifest, Json.decode? Manifest.ofJson? m.toJson.pretty = some m) ∧
    (∀ r : Survey.Report, Json.decode? Survey.Report.ofJson? r.toJson.pretty = some r) ∧
    (∀ r : Survey.Response, Json.decode? Survey.Response.ofJson? r.toJson.pretty = some r) ∧
    (∀ r : Response, Json.decode? Response.ofJson? r.toJson.pretty = some r) ∧
    (∀ r : Request, Json.decode? Request.ofJson? r.toJson.pretty = some r) ∧
    (∀ r : Survey.Request, Json.decode? Survey.Request.ofJson? r.toJson.pretty = some r) ∧
    (∀ s : Source, Json.decode? Source.ofJson? s.toJson.pretty = some s) ∧
    ∀ (fs after : FileSystem) (m : Manifest) (output file : Path), fs.WellFormed →
      writeManifest m output fs = .ok file after →
      file = output.join ⟨manifestFile⟩ ∧
        ∃ contents : String, fs.write file contents.toUTF8 = .ok after ∧
          Json.decode? Manifest.ofJson? contents = some m ∧
          (after.readText file = .ok contents ∨ ∃ place, after.stat file = .ok (place, .void)) :=
  ⟨Story.Group.faithful.decode?_pretty, Story.Metadata.faithful.decode?_pretty,
    Manifest.faithful.decode?_pretty, Survey.Report.faithful.decode?_pretty,
    Survey.Response.faithful.decode?_pretty, Response.faithful.decode?_pretty,
    Request.faithful.decode?_pretty, Survey.Request.faithful.decode?_pretty,
    Source.faithful.decode?_pretty, fun _ _ _ _ _ hfs h =>
      ⟨(write_of_writeManifest h).1, stored_of_writeManifest hfs h⟩⟩

def escapedKeyManifest : Manifest := ⟨.ofList [("a\"\\\n\x01é/b", "u"), ("Z/y", "v")]⟩

theorem documents_read_back_escaped_key :
    ∃ after contents,
      writeManifest escapedKeyManifest ⟨"out"⟩ ⟨[(["out"], .folder)], []⟩ =
        .ok ⟨"out/entries.json"⟩ after ∧
      after.readText ⟨"out/entries.json"⟩ = .ok contents ∧
      Json.decode? Manifest.ofJson? contents = some escapedKeyManifest := by
  have hwritten : ((writeManifest escapedKeyManifest ⟨"out"⟩).outcome?
      ⟨[(["out"], .folder)], []⟩).any
        (fun w => w.1 = ⟨"out/entries.json"⟩ && w.2.isFile ⟨"out/entries.json"⟩) = true := by
    decide +kernel
  obtain ⟨⟨file, after⟩, hafter, hfile⟩ := (Option.any_eq_true _ _).mp hwritten
  obtain ⟨rfl, hkept⟩ : file = ⟨"out/entries.json"⟩ ∧ after.isFile ⟨"out/entries.json"⟩ := by
    simpa using hfile
  have hok := FileAction.outcome?_eq_some_iff.mp hafter
  obtain ⟨-, -, -, -, -, -, -, -, -, hstored⟩ := documents_read_back
  obtain ⟨-, contents, -, hdecode, hread | ⟨place, hvoid⟩⟩ :=
    hstored _ after escapedKeyManifest _ _ ⟨by decide +kernel, by decide +kernel⟩ hok
  · exact ⟨after, contents, hok, hread, hdecode⟩
  · exact absurd hvoid (FileSystem.not_void_of_isFile hkept)

end Build

end Docset
