import Docset.Cli.Run
import Docset.Proofs.Build.Repeat
import Docset.Proofs.Files.Spelling
import Docset.Proofs.Text.Slice

/-!
# A build that scans, and a survey

A build without the project's own tools surveys the sources of the project. It finds them
from the absolute path of the project on, while a survey of the same folder makes the path
of the folder absolute as a whole. Both report the same about the same modules in the same
order, with other paths before the names, as long as every module can be named from both
paths: a path that is too long to be used hides what is below it. If the pattern of a call
is refused, both fail alike.
-/
namespace Docset

open FileSystem

variable {host : Host} {fs after : FileSystem} {c : Config} {o : Scan.Options}
  {base base' p root folder : Path} {place : Location} {f : FileFilter}

namespace Scan

theorem compileWithin_eq_error_iff {limit : Nat} {p : CallPattern} :
    (∃ reason, compileWithin limit p = .error reason) ↔ limit < 32 * Text.byteLength p.lead := by
  unfold compileWithin
  split
  · rename_i hfits
    simp [Nat.not_lt.mpr hfits]
  · rename_i hlong
    simp [Nat.not_le.mp hlong]

theorem Options.compile_of_groupPattern {compiler : PatternCompiler} {reason : String}
    (h : compiler o.groupPattern = .error reason) :
    o.compile compiler = .error (.invalidPattern reason) := by
  rw [Options.compile, h]
  rfl

end Scan

namespace Survey

abbrev Finding := Except String (Nat × List Story.Group)

/-- The report on modules that are named from a path on. -/
def reportOf (base : Path) (findings : List (List String × Finding)) : Report :=
  findings.foldl (fun r m => r.add (base.below m.1) m.2) {}

def Finding.groups : Finding → List Story.Group
  | .ok found => found.2
  | .error _ => []

theorem groups_reportOf (base : Path) (findings : List (List String × Finding)) :
    (reportOf base findings).groups = findings.flatMap fun m => m.2.groups := by
  have hfrom : ∀ r : Report,
      (findings.foldl (fun r m => r.add (base.below m.1) m.2) r).groups =
        r.groups ++ findings.flatMap fun m => m.2.groups := by
    induction findings with
    | nil => simp
    | cons m findings ih =>
        intro r
        have hadd : (r.add (base.below m.1) m.2).groups = r.groups ++ m.2.groups := by
          cases hfinding : m.2 with
          | ok found => simp [Report.add, Report.groups, Finding.groups]
          | error e => simp [Report.add, Report.groups, Finding.groups]
        rw [List.foldl_cons, ih, hadd, List.flatMap_cons, List.append_assoc]
  exact hfrom {}

theorem manifest_reportOf (base base' : Path) (findings : List (List String × Finding)) :
    (reportOf base findings).manifest = (reportOf base' findings).manifest := by
  unfold Report.manifest
  rw [groups_reportOf, groups_reportOf]

/-- What is found about the modules below a place, named from a path on. -/
def findingsBelow (fs : FileSystem) (o : Scan.Options) (f : FileFilter) (base : Path)
    (place : Location) : List (List String × Finding) :=
  (fs.sortedNames f place).map fun names => (names, examine fs o (base.below names))

theorem scanFolder_of_reaches (hfs : fs.WellFormed) (hfilter : c.filter? = some f)
    (h : f.Reaches fs base place) (habs : base.isAbsolute) (hleads : fs.Leads base place) :
    scanFolder host fs c base =
      (prepare host c).map fun _ => reportOf base (findingsBelow fs c.scan f base place) := by
  unfold scanFolder
  rw [hfilter]
  simp only
  rw [h.findFiles_eq hfs (Path.text_ne_empty_of_isAbsolute habs) hleads, scanFiles, reportOf,
    findingsBelow, List.foldl_map, List.foldl_map]

theorem findingsBelow_eq (hfs : fs.WellFormed) (h : f.Reaches fs base place)
    (h' : f.Reaches fs base' place) (hne : base.text ≠ "") (hne' : base'.text ≠ "")
    (hleads : fs.Leads base place) (hleads' : fs.Leads base' place) :
    findingsBelow fs o f base place = findingsBelow fs o f base' place := by
  apply List.map_congr_left
  intro names hmem
  obtain ⟨bytes, runnable, hget, hstat⟩ := h.stat_eq hfs hne hleads hmem
  obtain ⟨bytes', runnable', hget', hstat'⟩ := h'.stat_eq hfs hne' hleads' hmem
  rw [hget] at hget'
  cases hget'
  have hread : fs.readText (base.below names) = fs.readText (base'.below names) := by
    rw [readText, readText, read_of_file hstat, read_of_file hstat']
  unfold examine
  rw [hread]

theorem resolveFolder_eq_ok_iff {resolved : Path} :
    resolveFolder fs p = .ok resolved ↔
      fs.canonicalize p = .ok resolved ∧ fs.isFolder resolved := by
  unfold resolveFolder
  cases hcanonical : fs.canonicalize p with
  | error e => simp
  | ok found =>
      by_cases hfolder : fs.isFolder found
      · simp only [hfolder, if_true, Except.ok.injEq]
        constructor
        · rintro rfl
          exact ⟨rfl, hfolder⟩
        · exact fun h => h.1
      · simp only [hfolder, Bool.false_eq_true, if_false, reduceCtorEq, Except.ok.injEq, false_iff,
          not_and]
        rintro rfl
        exact hfolder

theorem run_of_folder (host : Host) (c : Config) (hstat : fs.stat folder = .ok (place, .folder))
    (hresolve : resolveFolder fs folder = .ok root) :
    run host fs c ⟨folder⟩ = (scanFolder host fs c root).map (⟨folder, ·⟩) := by
  have hfile : fs.isFile folder = false := by simp [isFile, hstat]
  unfold run
  simp only [hfile, Bool.false_eq_true, if_false, hresolve]

end Survey

/-- A text is written to a file, once the folder around it was made. -/
def FileSystem.Writes (fs : FileSystem) (around : Option Path) (file : Path) (text : String)
    (after : FileSystem) : Prop :=
  ∃ start, (match around with
      | some folder => makeFolders folder fs = .ok () start
      | none => start = fs) ∧
    start.write file text.toUTF8 = .ok after ∧
    (after.isFile file → after.readText file = .ok text)

namespace Build

variable {setting : Command.Setting} {output : Path} {report : Survey.Report} {r r' : Response}

theorem compose_skipping : compose host setting c root true = survey host c root none := rfl

theorem run_skipping_of_error {output : Option Path} {e : Error}
    (hroot : Survey.resolveFolder fs p = .ok root)
    (hscan : Survey.scanFolder host fs c (root.join c.sourceRoot) = .error e) :
    run host setting c { root := p, output, skipExternal := true } fs = .error e fs := by
  unfold run
  refine FileAction.bind_eq_error_iff.mpr (.inr ⟨root, fs, ?_, ?_⟩)
  · exact FileAction.inspect_eq_ok_iff.mpr ⟨hroot, rfl⟩
  · refine FileAction.bind_eq_error_iff.mpr (.inl ?_)
    rw [compose_skipping]
    exact FileAction.inspect_eq_error_iff.mpr ⟨by rw [hscan]; rfl, rfl⟩

/-- What a build does that leaves the project's own tools alone. -/
theorem run_skipping_eq_ok_iff {output : Option Path}
    (hroot : Survey.resolveFolder fs p = .ok root)
    (hscan : Survey.scanFolder host fs c (root.join c.sourceRoot) = .ok report) :
    run host setting c { root := p, output, skipExternal := true } fs = .ok r after ↔
      match output with
      | some out => deliver c root out (ofReport report none) fs = .ok r after
      | none => ofReport report none = r ∧ fs = after := by
  unfold run
  simp only [FileAction.bind_eq_ok_iff, FileAction.inspect_eq_ok_iff, hroot,
    compose_skipping, survey_eq_ok_iff, Except.ok.injEq]
  constructor
  · rintro ⟨found, mid, ⟨rfl, rfl⟩, answer, mid, ⟨hanswer, rfl⟩, h⟩
    rw [hscan] at hanswer
    cases hanswer
    cases output with
    | some out => exact h
    | none => exact FileAction.pure_eq_ok_iff.mp h
  · intro h
    refine ⟨root, fs, ⟨rfl, rfl⟩, ofReport report none, fs, ⟨by rw [hscan]; rfl, rfl⟩, ?_⟩
    cases output with
    | some out => exact h
    | none => exact FileAction.pure_eq_ok_iff.mpr h

theorem report_of_deliver (h : deliver c root output (ofReport report none) fs = .ok r after) :
    r.report = some report ∧ r.entries = (ofReport report none).entries := by
  obtain ⟨file, copy, rfl | rfl⟩ := deliver_response h
  · exact ⟨rfl, rfl⟩
  · exact ⟨rfl, rfl⟩

theorem entries_ofReport (report : Survey.Report) (e : Option String) :
    (ofReport report e).entries =
      if report.manifest.isEmpty then .degraded else report.manifest := by
  change (orDegraded report.manifest .scanned).1 = _
  unfold orDegraded
  split
  · rfl
  · rfl

/-- A delivery writes the manifest, and copies the built storybook afterwards if there is one. -/
theorem writes_of_deliver (hfs : fs.WellFormed)
    (h : deliver c root output r fs = .ok r' after) :
    ∃ written,
      fs.Writes (some output) (output.join ⟨manifestFile⟩) r.entries.toJson.pretty written ∧
      (written = after ∨ ∃ copy, (bundle c root).perform output written = .ok copy after) := by
  obtain ⟨start, written, hmade, hwrite, hrest⟩ := deliver_eq_ok_iff.mp h
  have hstart := (grows_of_makeFolders hmade).1.wellFormed hfs
  refine ⟨written, ⟨start, hmade, hwrite, readText_of_write hstart hwrite⟩, ?_⟩
  rcases hrest with ⟨-, rfl, -⟩ | ⟨-, copy, hperform, -⟩
  · exact .inl rfl
  · exact .inr ⟨copy, hperform⟩

end Build

namespace Cli

variable {output : Option Path} {format lead stdout : String}

theorem run_of_build {setting : Command.Setting} {skip verbose : Bool}
    (h : build host setting c p output skip verbose fs = .ok stdout after) :
    ∃ r, Build.run host setting c
      { root := p, output := some (output.getD c.outputDir), skipExternal := skip } fs =
        .ok r after := by
  obtain ⟨r, mid, hrun, hprint⟩ := FileAction.bind_eq_ok_iff.mp h
  obtain ⟨-, rfl⟩ := FileAction.pure_eq_ok_iff.mp hprint
  exact ⟨r, FileAction.mapError_eq_ok_iff.mp hrun⟩

theorem write_of_last {file : Path} {bytes : ByteArray} {failure : IoError → Failure}
    {said : String}
    (h : ((FileAction.change (·.write file bytes)).mapError failure >>= fun _ => pure said) fs =
      .ok stdout after) : fs.write file bytes = .ok after := by
  obtain ⟨u, mid, hwrite, hprint⟩ := FileAction.bind_eq_ok_iff.mp h
  obtain ⟨-, rfl⟩ := FileAction.pure_eq_ok_iff.mp hprint
  exact FileAction.change_eq_ok_iff.mp (FileAction.mapError_eq_ok_iff.mp hwrite)

theorem writes_of_compose {report : Survey.Report} {file : Path} (hfs : fs.WellFormed)
    (hformat : composeFormat format = .ok false)
    (hfile : output.getD (c.outputDir.join ⟨"entries.json"⟩) = file)
    (hscan : Survey.run host fs c ⟨folder⟩ = .ok ⟨folder, report⟩)
    (h : compose host c folder output format lead fs = .ok stdout after) :
    fs.Writes file.parent? file report.manifest.toJson.pretty after := by
  unfold compose at h
  obtain ⟨html, mid, hinspect, h⟩ := FileAction.bind_eq_ok_iff.mp h
  obtain ⟨hhtml, rfl⟩ := FileAction.inspect_eq_ok_iff.mp hinspect
  rw [hformat] at hhtml
  cases hhtml
  obtain ⟨found, mid, hinspect, h⟩ := FileAction.bind_eq_ok_iff.mp h
  obtain ⟨hfound, rfl⟩ := FileAction.inspect_eq_ok_iff.mp hinspect
  rw [hscan] at hfound
  cases hfound
  simp only [Bool.false_eq_true, if_false, hfile] at h
  cases hparent : file.parent? with
  | none =>
      rw [hparent] at h
      have hwrite := write_of_last h
      exact ⟨fs, rfl, hwrite, readText_of_write hfs hwrite⟩
  | some around =>
      rw [hparent] at h
      obtain ⟨u, start, hmake, h⟩ := FileAction.bind_eq_ok_iff.mp h
      have hmade := FileAction.mapError_eq_ok_iff.mp hmake
      have hstart := (grows_of_makeFolders hmade).1.wellFormed hfs
      have hwrite := write_of_last h
      exact ⟨start, hmade, hwrite, readText_of_write hstart hwrite⟩

end Cli

namespace Build

/-- A survey of the sources from the project's absolute path finds what a survey of their folder
finds, if the scanner can be made at all. -/
theorem exists_findings (host : Host) {resolved : Path} {filter : FileFilter} (hfs : fs.WellFormed)
    (hfilter : c.filter? = some filter) (hroot : Survey.resolveFolder fs p = .ok root)
    (hsource : fs.stat (p.join c.sourceRoot) = .ok (place, .folder))
    (hfolder : fs.stat folder = .ok (place, .folder))
    (hresolved : Survey.resolveFolder fs folder = .ok resolved)
    (hbuild : filter.Reaches fs (root.join c.sourceRoot) place)
    (hsurvey : filter.Reaches fs resolved place) :
    ∃ findings,
      Survey.scanFolder host fs c (root.join c.sourceRoot) =
        (Survey.prepare host c).map (fun _ =>
          Survey.reportOf (root.join c.sourceRoot) findings) ∧
      Survey.scanFolder host fs c resolved =
        (Survey.prepare host c).map (fun _ => Survey.reportOf resolved findings) := by
  obtain ⟨hcanonical, -⟩ := Survey.resolveFolder_eq_ok_iff.mp hroot
  obtain ⟨hcanonical', -⟩ := Survey.resolveFolder_eq_ok_iff.mp hresolved
  -- Both paths are absolute, and lead to the folder.
  have habs : (root.join c.sourceRoot).isAbsolute := by
    obtain ⟨-, l, -, rfl⟩ := follow_of_canonicalize hcanonical
    exact Path.isAbsolute_join_left _ l.isAbsolute_path
  have hleads : fs.Leads (root.join c.sourceRoot) place :=
    hfs.stat_canonical_join hcanonical hsource
  have hpath := hfs.path_of_canonicalize hcanonical' hfolder
  have habs' : resolved.isAbsolute := by
    rw [hpath]
    exact place.isAbsolute_path
  have hleads' : fs.Leads resolved place := by
    rw [hpath]
    exact hfs.stat_path (get?_of_resolve (stat_eq_ok_iff.mp hfolder))
  have hsame : Survey.findingsBelow fs c.scan filter (root.join c.sourceRoot) place =
      Survey.findingsBelow fs c.scan filter resolved place :=
    Survey.findingsBelow_eq hfs hbuild hsurvey (Path.text_ne_empty_of_isAbsolute habs)
      (Path.text_ne_empty_of_isAbsolute habs') hleads hleads'
  refine ⟨Survey.findingsBelow fs c.scan filter resolved place, ?_, ?_⟩
  · rw [Survey.scanFolder_of_reaches hfs hfilter hbuild habs hleads, hsame]
  · exact Survey.scanFolder_of_reaches hfs hfilter hsurvey habs' hleads'

/-- A build that leaves the project's own tools alone finds what a survey of its sources finds. If
that lists a story, the same manifest is written by the build and by composing it. Where the scanner
cannot be made, both fail for the same reason. -/
theorem run_agrees_with_survey (host : Host) (setting : Command.Setting) {resolved : Path}
    {filter : FileFilter} (hfs : fs.WellFormed) (hfilter : c.filter? = some filter)
    (hroot : Survey.resolveFolder fs p = .ok root)
    (hsource : fs.stat (p.join c.sourceRoot) = .ok (place, .folder))
    (hfolder : fs.stat folder = .ok (place, .folder))
    (hresolved : Survey.resolveFolder fs folder = .ok resolved)
    (hbuild : filter.Reaches fs (root.join c.sourceRoot) place)
    (hsurvey : filter.Reaches fs resolved place) :
    (∀ e, Survey.prepare host c = .error e →
      Survey.run host fs c ⟨folder⟩ = .error e ∧
      ∀ output, run host setting c { root := p, output, skipExternal := true } fs =
        .error e fs) ∧
    (Survey.prepare host c = .ok () →
      ∃ findings,
        let report := Survey.reportOf resolved findings
        Survey.run host fs c ⟨folder⟩ = .ok ⟨folder, report⟩ ∧
        (∃ r, run host setting c { root := p, skipExternal := true } fs = .ok r fs) ∧
        (∀ output r after,
          run host setting c { root := p, output, skipExternal := true } fs = .ok r after →
          r.report = some (Survey.reportOf (root.join c.sourceRoot) findings) ∧
            r.entries = if report.manifest.isEmpty then .degraded else report.manifest) ∧
        (report.manifest.isEmpty = false →
          (∀ output format lead stdout after, Cli.composeFormat format = .ok false →
            Cli.compose host c folder output format lead fs = .ok stdout after →
            let file := output.getD (c.outputDir.join ⟨"entries.json"⟩)
            fs.Writes file.parent? file report.manifest.toJson.pretty after) ∧
          ∀ output verbose stdout after,
            Cli.build host setting c p output true verbose fs = .ok stdout after →
            let out := output.getD c.outputDir
            ∃ written,
              fs.Writes (some out) (out.join ⟨manifestFile⟩) report.manifest.toJson.pretty
                written ∧
              (written = after ∨
                ∃ copy, (bundle c root).perform out written = .ok copy after))) := by
  obtain ⟨findings, hscan, hscan'⟩ :=
    exists_findings host hfs hfilter hroot hsource hfolder hresolved hbuild hsurvey
  have hrun := Survey.run_of_folder host c hfolder hresolved
  rw [hscan'] at hrun
  constructor
  · intro e hprepare
    rw [hprepare] at hscan hrun
    exact ⟨hrun, fun output => run_skipping_of_error hroot hscan⟩
  intro hprepare
  rw [hprepare] at hscan hrun
  have hentries := entries_ofReport (Survey.reportOf (root.join c.sourceRoot) findings) none
  rw [Survey.manifest_reportOf _ resolved] at hentries
  refine ⟨findings, hrun, ?_, ?_, ?_⟩
  · exact ⟨_, (run_skipping_eq_ok_iff hroot hscan).mpr ⟨rfl, rfl⟩⟩
  · intro output r after h
    have hsteps := (run_skipping_eq_ok_iff hroot hscan).mp h
    cases output with
    | some out =>
        obtain ⟨hreport, hsame⟩ := report_of_deliver hsteps
        exact ⟨hreport, hsame.trans hentries⟩
    | none =>
        obtain ⟨rfl, -⟩ := hsteps
        exact ⟨rfl, hentries⟩
  · intro hlists
    rw [if_neg (by simp [hlists])] at hentries
    constructor
    · intro output format lead stdout after hformat h file
      have hfile : output.getD (c.outputDir.join ⟨"entries.json"⟩) = file := rfl
      exact Cli.writes_of_compose hfs hformat hfile hrun h
    · intro output verbose stdout after h
      obtain ⟨r, hdone⟩ := Cli.run_of_build h
      have hwrites := writes_of_deliver hfs ((run_skipping_eq_ok_iff hroot hscan).mp hdone)
      rwa [hentries] at hwrites

def linkedProject : FileSystem :=
  { entries :=
      [(["p"], .folder),
        (["a.stories.js", "p"], .file "storiesOf('A').add('x')".toUTF8 false),
        (["l"], .link "p")]
    here := ["p"] }

theorem linkedProject_wellFormed : linkedProject.WellFormed :=
  ⟨by decide, by decide⟩

def dottedConfig : Config := { sourceRoot := ⟨"./."⟩ }

/-- A dot and slashes: a path of the current folder, of any length. -/
def slashed : Nat → String
  | 0 => "."
  | n + 1 => slashed n ++ "/" ++ ""

theorem utf8ByteSize_slashed (n : Nat) : (slashed n).utf8ByteSize = n + 1 := by
  induction n with
  | zero => rfl
  | succ n ih =>
      have hslash : "/".utf8ByteSize = 1 := rfl
      rw [slashed, String.utf8ByteSize_append, String.utf8ByteSize_append, ih, hslash]
      rfl

/-- The same sources, with groups opened by calls of `name`. -/
def callConfig (name : String) : Config := { dottedConfig with scan := { groupCall := name } }

theorem prepare_callConfig {name : String}
    (h : Scan.defaultPatternLimit < 32 * name.utf8ByteSize) :
    ∃ e, Survey.prepare .bare (callConfig name) = .error e := by
  have hrefused : ∃ reason,
      Host.bare.compile (callConfig name).scan.groupPattern = .error reason := by
    refine Scan.compileWithin_eq_error_iff.mpr ?_
    change _ < 32 * Text.byteLength name.toList
    rwa [Text.byteLength_toList]
  obtain ⟨reason, hreason⟩ := hrefused
  refine ⟨.scan (.invalidPattern reason), ?_⟩
  rw [Survey.prepare, Scan.Options.compile_of_groupPattern hreason]
  rfl

/-- Sixteen mebibytes. -/
def endlessName : String := slashed 16777215

theorem utf8ByteSize_endlessName : endlessName.utf8ByteSize = 16777216 := by
  rw [endlessName, utf8ByteSize_slashed]

/-- The build finds the module below `/p/./.`, the survey below `/p`. With a name that is too long
for a pattern both fail. -/
theorem run_agrees_with_survey_linked_project :
    (∃ e, Survey.run .bare linkedProject (callConfig endlessName) ⟨⟨"."⟩⟩ = .error e ∧
      run .bare {} (callConfig endlessName) { root := ⟨"/l"⟩, skipExternal := true } linkedProject =
        .error e linkedProject) ∧
    ∃ findings,
      let m := (Survey.reportOf ⟨"/p"⟩ findings).manifest
      Survey.run .bare linkedProject dottedConfig ⟨⟨"."⟩⟩ =
        .ok ⟨⟨"."⟩, Survey.reportOf ⟨"/p"⟩ findings⟩ ∧
      m.isEmpty = false ∧
      (∃ r, run .bare {} dottedConfig { root := ⟨"/l"⟩, skipExternal := true } linkedProject =
          .ok r linkedProject ∧
        r.report = some (Survey.reportOf ⟨"/p/./."⟩ findings) ∧ r.entries = m) ∧
      (∃ stdout after,
        Cli.compose .bare dottedConfig ⟨"."⟩ none "json" "" linkedProject = .ok stdout after ∧
        linkedProject.Writes (some ⟨"docset"⟩) ⟨"docset/entries.json"⟩ m.toJson.pretty after) ∧
      ∃ stdout after,
        Cli.build .bare {} dottedConfig ⟨"/l"⟩ none true false linkedProject = .ok stdout after ∧
        ∃ written, linkedProject.Writes (some ⟨"docset"⟩) ⟨"docset/entries.json"⟩ m.toJson.pretty
          written := by
  have hfilter : dottedConfig.filter?.isSome := by decide +kernel
  obtain ⟨filter, hfilter⟩ := Option.isSome_iff_exists.mp hfilter
  have hjoin : Path.join ⟨"/p"⟩ dottedConfig.sourceRoot = ⟨"/p/./."⟩ := by decide +kernel
  have hroot : (Survey.resolveFolder linkedProject ⟨"/l"⟩).toOption = some ⟨"/p"⟩ := by
    decide +kernel
  have hsource : (linkedProject.stat (Path.join ⟨"/l"⟩ dottedConfig.sourceRoot)).toOption =
      some (["p"], .folder) := by decide +kernel
  have hfolder : (linkedProject.stat ⟨"."⟩).toOption = some (["p"], .folder) := by decide +kernel
  have hresolved : (Survey.resolveFolder linkedProject ⟨"."⟩).toOption = some ⟨"/p"⟩ := by
    decide +kernel
  have hbelow : filter.Reaches linkedProject (Path.join ⟨"/p"⟩ dottedConfig.sourceRoot) ["p"] :=
    FileFilter.reaches_of_entries (by decide +kernel)
  have hbelow' : filter.Reaches linkedProject ⟨"/p"⟩ ["p"] :=
    FileFilter.reaches_of_entries (by decide +kernel)
  -- The name of the call is of no account for which modules there are.
  have hagree (name : String) :=
    run_agrees_with_survey .bare {} (c := callConfig name) linkedProject_wellFormed hfilter
      (except_toOption_eq_some_iff.mp hroot) (except_toOption_eq_some_iff.mp hsource)
      (except_toOption_eq_some_iff.mp hfolder) (except_toOption_eq_some_iff.mp hresolved) hbelow
      hbelow'
  constructor
  · have hlong : Scan.defaultPatternLimit < 32 * endlessName.utf8ByteSize := by
      rw [utf8ByteSize_endlessName]
      decide
    obtain ⟨e, he⟩ := prepare_callConfig hlong
    obtain ⟨hfails, -⟩ := hagree endlessName
    obtain ⟨hsurvey, hbuild⟩ := hfails e he
    exact ⟨e, hsurvey, hbuild none⟩
  have hdotted : callConfig "storiesOf" = dottedConfig := rfl
  obtain ⟨-, hagrees⟩ := hagree "storiesOf"
  rw [hdotted] at hagrees
  obtain ⟨findings, hrun, ⟨r, hr⟩, hanswer, hwrites⟩ := hagrees rfl
  have hlists : (Survey.run .bare linkedProject dottedConfig ⟨⟨"."⟩⟩).toOption.any
      (fun response => !response.report.manifest.isEmpty) := by decide +kernel
  rw [hrun] at hlists
  have hempty : (Survey.reportOf ⟨"/p"⟩ findings).manifest.isEmpty = false := by
    simpa [Except.toOption] using hlists
  obtain ⟨hreport, hentries⟩ := hanswer none r linkedProject hr
  rw [if_neg (by simp [hempty])] at hentries
  rw [hjoin] at hreport
  obtain ⟨hcompose, hbuild⟩ := hwrites hempty
  have hfile : dottedConfig.outputDir.join ⟨"entries.json"⟩ = ⟨"docset/entries.json"⟩ := by
    decide +kernel
  have hparent : Path.parent? ⟨"docset/entries.json"⟩ = some ⟨"docset"⟩ := by decide +kernel
  have hcomposes : ((Cli.compose .bare dottedConfig ⟨"."⟩ none "json" "").outcome?
      linkedProject).isSome := by decide +kernel
  have hbuilds : ((Cli.build .bare {} dottedConfig ⟨"/l"⟩ none true false).outcome?
      linkedProject).isSome := by decide +kernel
  obtain ⟨⟨stdout, after⟩, hcomposed⟩ := Option.isSome_iff_exists.mp hcomposes
  obtain ⟨⟨stdout', after'⟩, hbuilt⟩ := Option.isSome_iff_exists.mp hbuilds
  have hcomposed := FileAction.outcome?_eq_some_iff.mp hcomposed
  have hbuilt := FileAction.outcome?_eq_some_iff.mp hbuilt
  have hmanifest := hcompose none "json" "" stdout after rfl hcomposed
  simp only [Option.getD_none, hfile, hparent] at hmanifest
  obtain ⟨written, hwritten, -⟩ := hbuild none false stdout' after' hbuilt
  exact ⟨findings, hrun, hempty, ⟨r, hr, hreport, hentries⟩, ⟨stdout, after, hcomposed, hmanifest⟩,
    ⟨stdout', after', hbuilt, written, hwritten⟩⟩

/-! ## A path that is too long -/

theorem toList_slashed (n : Nat) : (slashed n).toList = '.' :: List.replicate n '/' := by
  induction n with
  | zero => rfl
  | succ n ih => simp [slashed, ih, List.replicate_succ']

theorem idle_of_mem_pieces_slashed {n : Nat} {piece : String}
    (h : piece ∈ (⟨slashed n⟩ : Path).pieces) : piece = "" ∨ piece = "." := by
  induction n with
  | zero => exact .inr (List.mem_singleton.mp h)
  | succ n ih =>
      rw [slashed, Path.pieces_append_slash, Path.pieces_empty] at h
      rcases List.mem_append.mp h with hmem | hmem
      · exact ih hmem
      · exact .inl (List.mem_singleton.mp hmem)

theorem isAbsolute_slashed (n : Nat) : (⟨slashed n⟩ : Path).isAbsolute = false := by
  simp [Path.isAbsolute, toList_slashed]

theorem nul_notMem_slashed (n : Nat) : '\x00' ∉ (slashed n).toList := by
  simp [toList_slashed]

theorem join_slashed {p : Path} (n : Nat) (hne : p.text ≠ "")
    (hlast : p.text.toList.getLast? ≠ some '/') :
    p.join ⟨slashed n⟩ = ⟨p.text ++ "/" ++ slashed n⟩ := by
  simp [Path.join, isAbsolute_slashed, hne, hlast]

def slashedConfig : Config := { sourceRoot := ⟨slashed 4092⟩ }

theorem stat_slashed :
    linkedProject.stat (Path.join ⟨"."⟩ slashedConfig.sourceRoot) = .ok (["p"], .folder) := by
  have hjoin : Path.join ⟨"."⟩ slashedConfig.sourceRoot = ⟨"." ++ "/" ++ slashed 4092⟩ :=
    join_slashed 4092 (by decide) (by decide)
  rw [hjoin]
  refine stat_of_idle (by decide) ?_ ?_ ?_
  · simp [Path.isAbsolute]
  · intro piece hpiece
    rw [Path.pieces_append_slash] at hpiece
    rcases List.mem_append.mp hpiece with hmem | hmem
    · exact .inr (List.mem_singleton.mp hmem)
    · exact idle_of_mem_pieces_slashed hmem
  · refine checkPath_eq_ok_iff.mpr ⟨?_, ?_, ?_⟩
    · rw [String.toList_append, List.mem_append, not_or]
      exact ⟨by decide, nul_notMem_slashed 4092⟩
    · simp
    · rw [String.utf8ByteSize_append, utf8ByteSize_slashed]
      decide

theorem checkPath_slashed : checkPath (Path.join ⟨"/p"⟩ slashedConfig.sourceRoot) ≠ .ok () := by
  intro h
  have hjoin : Path.join ⟨"/p"⟩ slashedConfig.sourceRoot = ⟨"/p" ++ "/" ++ slashed 4092⟩ :=
    join_slashed 4092 (by decide) (by decide)
  rw [hjoin] at h
  obtain ⟨-, -, hlong⟩ := checkPath_eq_ok_iff.mp h
  rw [String.utf8ByteSize_append, utf8ByteSize_slashed] at hlong
  exact absurd hlong (by decide)

/-- The build does not find the sources, because their path from `/p` on is too long. A survey of
their folder finds them. -/
theorem run_misses_long_path :
    slashedConfig.filter?.isSome ∧
      linkedProject.stat (Path.join ⟨"."⟩ slashedConfig.sourceRoot) = .ok (["p"], .folder) ∧
      linkedProject.stat ⟨"/p"⟩ = .ok (["p"], .folder) ∧
      ∃ r response,
        run .bare {} slashedConfig { root := ⟨"."⟩, skipExternal := true } linkedProject =
          .ok r linkedProject ∧
        Survey.run .bare linkedProject slashedConfig ⟨⟨"/p"⟩⟩ = .ok response ∧
        (r.report = some {} ∧ response.report.files.length = 1) ∧
        response.report.manifest.isEmpty = false ∧ r.entries ≠ response.report.manifest := by
  have hfilter : slashedConfig.filter?.isSome := by decide +kernel
  obtain ⟨filter, hsome⟩ := Option.isSome_iff_exists.mp hfilter
  have hroot : (Survey.resolveFolder linkedProject ⟨"."⟩).toOption = some ⟨"/p"⟩ := by
    decide +kernel
  have hfolder : (linkedProject.stat ⟨"/p"⟩).toOption = some (["p"], .folder) := by decide +kernel
  have hscan : Survey.scanFolder .bare linkedProject slashedConfig
      (Path.join ⟨"/p"⟩ slashedConfig.sourceRoot) = .ok {} := by
    unfold Survey.scanFolder
    rw [hsome]
    simp only [findFiles_of_checkPath checkPath_slashed]
    rfl
  have hrun : run .bare {} slashedConfig { root := ⟨"."⟩, skipExternal := true } linkedProject =
      .ok (ofReport {} none) linkedProject :=
    (run_skipping_eq_ok_iff (except_toOption_eq_some_iff.mp hroot) hscan).mpr ⟨rfl, rfl⟩
  have hsurvey : (Survey.run .bare linkedProject slashedConfig ⟨⟨"/p"⟩⟩).toOption.any
      (fun response => response.report.files.length = 1 ∧
        response.report.manifest.isEmpty = false ∧
        .degraded ≠ response.report.manifest) := by decide +kernel
  obtain ⟨response, hresponse, hparts⟩ := (Option.any_eq_true _ _).mp hsurvey
  obtain ⟨hlength, hlists, hother⟩ := of_decide_eq_true hparts
  exact ⟨hfilter, stat_slashed, except_toOption_eq_some_iff.mp hfolder, _, response, hrun,
    except_toOption_eq_some_iff.mp hresponse, ⟨rfl, hlength⟩, hlists, hother⟩

end Build

end Docset
