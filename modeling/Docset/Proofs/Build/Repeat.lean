import Docset.Build.Run
import Docset.Proofs.Build.Inclusion
import Docset.Proofs.Build.Outcome
import Docset.Proofs.Survey.Contribution

/-!
# Building once more

A build writes into the tree that the next build reads. If nothing that it wrote is a
module with stories for the next one, and the copy of the storybook is tidy, the next build
gives the same manifest and leaves the tree exactly as it is. Without the first condition it
need not: the search leaves out the built storybook by its name, and the copy has another
one. As everywhere here, the files of the tree can all be read and written.
-/
namespace Docset

open FileSystem

variable {fs mid after : FileSystem} {P : Location → Prop}

theorem Survey.resolveFolder_of_keeps {p root : Path} (k : Keeps fs after)
    (h : Survey.resolveFolder fs p = .ok root) : Survey.resolveFolder after p = .ok root := by
  unfold Survey.resolveFolder at h ⊢
  cases hcanonical : fs.canonicalize p with
  | error e =>
      rw [hcanonical] at h
      cases h
  | ok resolved =>
      rw [hcanonical] at h
      rw [k.canonicalize hcanonical]
      by_cases hfolder : fs.isFolder resolved
      · simp only [hfolder, if_true] at h
        simpa only [k.isFolder hfolder, if_true] using h
      · simp [hfolder] at h

namespace Build

variable {host : Host} {c : Config} {root output : Path} {r r' : Response}

/-- How the built storybook goes into a docset. -/
def bundle (c : Config) (root : Path) : Inclusion :=
  { source := root.join c.storybookDir
    name := Story.viewerRoot
    additions := [(⟨"index.html"⟩, layoutOverrides)] }

@[simp] theorem bundle_name : (bundle c root).name = Story.viewerRoot := rfl

theorem deliver_eq_ok_iff :
    deliver c root output r fs = .ok r' after ↔
      ∃ start mid, makeFolders output fs = .ok () start ∧
        start.write (output.join ⟨manifestFile⟩) r.entries.toJson.pretty.toUTF8 = .ok mid ∧
        (mid.isFolder (root.join c.storybookDir) = false ∧ after = mid ∧
            r' = { r with manifestPath := some (output.join ⟨manifestFile⟩) } ∨
          mid.isFolder (root.join c.storybookDir) = true ∧
            ∃ copy, (bundle c root).perform output mid = .ok copy after ∧
              r' = { r with
                manifestPath := some (output.join ⟨manifestFile⟩)
                included := some copy }) := by
  unfold deliver writeManifest
  simp only [FileAction.bind_eq_ok_iff, FileAction.mapError_eq_ok_iff,
    FileAction.change_eq_ok_iff, FileAction.pure_eq_ok_iff, FileAction.inspect_eq_ok_iff]
  constructor
  · rintro ⟨⟨⟩, start, hmade, file, mid, ⟨⟨⟩, mid, hwrite, rfl, rfl⟩, isFolder, mid,
      ⟨hfolder, rfl⟩, h⟩
    refine ⟨start, mid, hmade, hwrite, ?_⟩
    cases isFolder with
    | true =>
        obtain ⟨copy, after', hperform, h⟩ := FileAction.bind_eq_ok_iff.mp h
        obtain ⟨rfl, rfl⟩ := FileAction.pure_eq_ok_iff.mp h
        exact .inr ⟨Except.ok.inj hfolder, copy, hperform, rfl⟩
    | false =>
        obtain ⟨rfl, rfl⟩ := FileAction.pure_eq_ok_iff.mp h
        exact .inl ⟨Except.ok.inj hfolder, rfl, rfl⟩
  · rintro ⟨start, mid, hmade, hwrite, h⟩
    refine ⟨(), start, hmade, _, mid, ⟨(), mid, hwrite, rfl, rfl⟩, ?_⟩
    rcases h with ⟨hfolder, rfl, rfl⟩ | ⟨hfolder, copy, hperform, rfl⟩
    · refine ⟨false, after, ⟨by rw [hfolder], rfl⟩, ?_⟩
      exact FileAction.pure_eq_ok_iff.mpr ⟨rfl, rfl⟩
    · refine ⟨true, mid, ⟨by rw [hfolder], rfl⟩, ?_⟩
      exact FileAction.bind_eq_ok_iff.mpr
        ⟨copy, after, hperform, FileAction.pure_eq_ok_iff.mpr ⟨rfl, rfl⟩⟩

theorem grows_of_deliver (hfs : fs.WellFormed) (h : deliver c root output r fs = .ok r' after) :
    Grows (fun _ => True) fs after := by
  obtain ⟨start, mid, hmade, hwrite, h⟩ := deliver_eq_ok_iff.mp h
  have hstart : Grows (fun _ => True) fs start :=
    (grows_of_makeFolders hmade).1.mono fun _ _ => trivial
  have hwf := hstart.wellFormed hfs
  obtain ⟨l, hl, -⟩ := grows_of_write hwf hwrite
  have hmid : Grows (fun _ => True) start mid := hl.mono fun _ _ => trivial
  rcases h with ⟨-, rfl, -⟩ | ⟨-, copy, hperform, -⟩
  · exact hstart.trans hmid
  · exact (hstart.trans hmid).trans (grows_of_perform (hmid.wellFormed hwf) hperform)

/-- What has to hold before and after a build for the next one to find the same: the folder that is
searched was not made by the build, no module that is searched for and contributes a story is new
or changed, and a storybook that was included left the tree tidy. -/
structure Settled (c : Config) (root output : Path) (before after : FileSystem) : Prop where
  source : after.present (root.join c.sourceRoot) → before.present (root.join c.sourceRoot)
  modules : ∀ {filter place e}, c.filter? = some filter →
    before.stat (root.join c.sourceRoot) = .ok (place, e) →
      filter.Unmoved (Survey.silent c.scan) place before after
  storybook : ∀ place, after.stat (root.join c.storybookDir) = .ok (place, .folder) →
    ∃ dest, (bundle c root).Tidy output before after place dest

/-- Writing the manifest once more changes nothing, or a file that is copied afterwards. -/
theorem write_again {p : Path} {bytes : ByteArray} {l : Location}
    (hafter : after.WellFormed) (k : Keeps mid after)
    (hfound : mid.resolve .created p = .ok (.found l .void) ∨
      ∃ runnable, mid.resolve .created p = .ok (.found l (.file bytes runnable)))
    (hframe : ∀ {x}, mid.get? l = some x → ¬ P l → after.get? l = some x) :
    ∃ again, after.write p bytes = .ok again ∧ Grows P after again := by
  rcases hfound with hvoid | ⟨runnable, hfile⟩
  · obtain ⟨e, he, halike⟩ := k.resolve hvoid
    cases halike
    exact ⟨after, write_of_found hafter (.inl he), .refl _⟩
  · obtain ⟨e, he, halike⟩ := k.resolve hfile
    by_cases hl : P l
    · obtain ⟨old, was, rfl⟩ := halike.exists_file
      obtain ⟨hgrows, -⟩ := Writable.fill (.inl ⟨old, was, get?_of_resolve he⟩) bytes
      refine ⟨after.fill l bytes, by simp [write, create, he, Except.map], hgrows.mono ?_⟩
      rintro _ rfl
      exact hl
    · have hget := hframe (get?_of_resolve hfile) hl
      rw [get?_of_resolve he] at hget
      cases hget
      exact ⟨after, write_of_found hafter (.inr ⟨runnable, he⟩), .refl _⟩

theorem deliver_again {report : Option Survey.Report} (hfs : fs.WellFormed)
    (h : deliver c root output r fs = .ok r' after) (hs : Settled c root output fs after) :
    deliver c root output { r with report } after = .ok { r' with report } after := by
  have hafter := (grows_of_deliver hfs h).wellFormed hfs
  obtain ⟨start, mid, hmade, hwrite, hrest⟩ := deliver_eq_ok_iff.mp h
  obtain ⟨hstart, houtput⟩ := grows_of_makeFolders hmade
  have hstartWf := hstart.wellFormed hfs
  obtain ⟨l, hmid, hfound⟩ := grows_of_write hstartWf hwrite
  have hmidWf := hmid.wellFormed hstartWf
  rcases hrest with ⟨hfolder, rfl, rfl⟩ | ⟨hfolder, copy, hperform, rfl⟩
  · exact deliver_eq_ok_iff.mpr ⟨after, after,
      makeFolders_of_isFolder (houtput.imp_right hmid.keeps.isFolder),
      write_of_found hafter hfound, .inl ⟨hfolder, rfl, rfl⟩⟩
  · have k := (grows_of_perform hmidWf hperform).keeps
    obtain ⟨place, hstat⟩ := isFolder_iff.mp hfolder
    obtain ⟨dest, htidy⟩ := hs.storybook place (k.stat_folder hstat)
    have htidyMid := htidy.of_grows (hstart.keeps.trans hmid.keeps)
    have hsource : mid.stat (bundle c root).source = .ok (place, .folder) := hstat
    have htext : (output.join ⟨(bundle c root).name⟩).text ≠ "" := by
      rw [bundle_name]
      exact Path.text_join_ne_empty (by decide) (by decide)
    have hframe : ∀ {x}, mid.get? l = some x → ¬ Counterpart after place dest l →
        after.get? l = some x := fun hget hl =>
      get?_of_perform hmidWf htext hsource hperform htidyMid hget hl
    obtain ⟨again, hagain, hgrows⟩ := write_again hafter k hfound hframe
    exact deliver_eq_ok_iff.mpr ⟨after, again,
      makeFolders_of_isFolder (houtput.imp_right fun hf => k.isFolder (hmid.keeps.isFolder hf)),
      hagain, .inr ⟨hgrows.keeps.isFolder (k.isFolder hfolder), copy,
        perform_again hmidWf htext hsource hperform htidyMid hgrows, rfl⟩⟩

theorem survey_again
    (hsame : (Survey.scanFolder host after c (root.join c.sourceRoot)).map Survey.Report.manifest =
      (Survey.scanFolder host fs c (root.join c.sourceRoot)).map Survey.Report.manifest)
    (h : survey host c root none fs = .ok r mid) :
    ∃ report, survey host c root none after = .ok { r with report } after := by
  obtain ⟨hreport, -⟩ := survey_eq_ok_iff.mp h
  cases hfirst : Survey.scanFolder host fs c (root.join c.sourceRoot) with
  | error e =>
      rw [hfirst] at hreport
      cases hreport
  | ok first =>
      cases hsecond : Survey.scanFolder host after c (root.join c.sourceRoot) with
      | error e =>
          rw [hfirst, hsecond] at hsame
          cases hsame
      | ok second =>
          rw [hfirst] at hreport
          rw [hfirst, hsecond] at hsame
          cases hreport
          refine ⟨some second, survey_eq_ok_iff.mpr ⟨?_, rfl⟩⟩
          rw [hsecond]
          simp only [Except.map, ofReport, Except.ok.inj hsame]

/-- If a build succeeds and the tree is settled, the next build gives the same answer, apart from
the report of its survey, and changes nothing at all. -/
theorem run_again_of_settled {setting : Command.Setting} {request : Request}
    (hfs : fs.WellFormed) (hskip : request.skipExternal = true)
    (houtput : request.output = some output)
    (hroot : Survey.resolveFolder fs request.root = .ok root)
    (h : run host setting c request fs = .ok r after) (hs : Settled c root output fs after) :
    ∃ report, run host setting c request after = .ok { r with report } after := by
  unfold run at h ⊢
  obtain ⟨root', fs₁, hinspect, h⟩ := FileAction.bind_eq_ok_iff.mp h
  obtain ⟨hroot', rfl⟩ := FileAction.inspect_eq_ok_iff.mp hinspect
  rw [hroot] at hroot'
  cases hroot'
  obtain ⟨composed, fs₁, hcompose, h⟩ := FileAction.bind_eq_ok_iff.mp h
  rw [hskip] at hcompose
  obtain ⟨-, rfl⟩ := survey_eq_ok_iff.mp hcompose
  rw [houtput] at h ⊢
  have hgrows := grows_of_deliver hfs h
  have hmanifest := Survey.manifest_scanFolder host hgrows hfs hs.source hs.modules
  obtain ⟨report, hsurvey⟩ := survey_again hmanifest hcompose
  refine ⟨report, FileAction.bind_eq_ok_iff.mpr ⟨root, after, FileAction.inspect_eq_ok_iff.mpr
    ⟨Survey.resolveFolder_of_keeps hgrows.keeps hroot, rfl⟩, ?_⟩⟩
  refine FileAction.bind_eq_ok_iff.mpr ⟨_, after, ?_, deliver_again hfs h hs⟩
  rw [hskip]
  exact hsurvey

def storyProject : FileSystem :=
  { entries :=
      [(["p"], .folder),
        (["a.stories.js", "p"], .file "storiesOf('Example/A').add('x', fn)".toUTF8 false),
        (["storybook-static", "p"], .folder),
        (["index.html", "storybook-static", "p"], .file "<html>".toUTF8 false),
        (["static", "storybook-static", "p"], .folder),
        (["main.js", "static", "storybook-static", "p"], .file "run()".toUTF8 false)]
    here := [] }

/-- What a build with an output folder in the project makes of it. -/
def storyDocset : FileSystem :=
  { storyProject with
    entries := storyProject.entries ++
      [(["docset", "p"], .folder),
        (["entries.json", "docset", "p"],
          .file ("\x7b\n  \"Component\": \x7b\n    \"A/x\": " ++
            "\"storybook/index.html?path=/story/example-a--x\"\n  \x7d\n\x7d").toUTF8 false),
        (["storybook", "docset", "p"], .folder),
        (["index.html", "storybook", "docset", "p"],
          .file ("<html>".toUTF8 ++ layoutOverrides.toUTF8) false),
        (["static", "storybook", "docset", "p"], .folder),
        (["main.js", "static", "storybook", "docset", "p"], .file "run()".toUTF8 false)] }

def docsetRequest (output : Path) : Request :=
  { root := ⟨"/p"⟩, output := some output, skipExternal := true }

/-- Every script is searched for stories, not only those that are named for them. -/
def scriptConfig : Config :=
  { storySuffixes := [".js"] }

theorem storyProject_wellFormed : storyProject.WellFormed :=
  ⟨by decide, by decide⟩

theorem storyDocset_tidy :
    (bundle scriptConfig ⟨"/p"⟩).Tidy ⟨"/p/docset"⟩ storyProject storyDocset
      ["storybook-static", "p"] ["storybook", "docset", "p"] where
  ready :=
    { source := except_toOption_eq_some_iff.mp (by decide)
      target := except_toOption_eq_some_iff.mp (by decide)
      apart := by decide
      plain := fun names _ hget => copied_of_entries (by decide) names hget }
  linked l t hlink := by
    have hitself : (storyDocset.lstat (bundle scriptConfig ⟨"/p"⟩).source).toOption =
        some (["storybook-static", "p"], .folder) := by decide
    rw [except_toOption_eq_some_iff.mp hitself] at hlink
    cases hlink
  additions a ha l bytes runnable hstat := by
    have hplace : ∀ a ∈ (bundle scriptConfig ⟨"/p"⟩).additions,
        ∀ found ∈ (storyDocset.stat
          ((Path.join ⟨"/p/docset"⟩ ⟨(bundle scriptConfig ⟨"/p"⟩).name⟩).join a.1)).toOption,
        found.1 = ["index.html"] ++ ["storybook", "docset", "p"] := by decide
    have hl := hplace a ha _ (except_toOption_eq_some_iff.mpr hstat)
    have hsource : storyDocset.get? (["index.html"] ++ ["storybook-static", "p"]) =
        some (.file "<html>".toUTF8 false) := by decide
    exact ⟨["index.html"], _, hl, hsource, rfl⟩

theorem storyDocset_settled :
    Settled scriptConfig ⟨"/p"⟩ ⟨"/p/docset"⟩ storyProject storyDocset where
  source _ := by decide +kernel
  modules {filter place e} hfilter hstat := by
    have hsource : (storyProject.stat (Path.join ⟨"/p"⟩ scriptConfig.sourceRoot)).toOption =
        some (["p"], .folder) := by decide +kernel
    rw [except_toOption_eq_some_iff.mp hsource] at hstat
    cases hstat
    have hlooks : ∀ f ∈ scriptConfig.filter?, ∀ p ∈ storyDocset.entries,
        f.LooksAt ["p"] p.1 →
          storyProject.unmovedAt (Survey.silent scriptConfig.scan) p.1 p.2 := by decide +kernel
    exact FileFilter.unmoved_of_entries (hlooks filter hfilter)
  storybook place hstat := by
    have hsource := storyDocset_tidy.ready.source
    change storyDocset.stat (Path.join ⟨"/p"⟩ scriptConfig.storybookDir) = _ at hsource
    rw [hsource] at hstat
    cases hstat
    exact ⟨_, storyDocset_tidy⟩

/-- The script that was copied is new to the second build, and contributes nothing. -/
theorem run_again_of_settled_story_project :
    ∃ r report, run .bare {} scriptConfig (docsetRequest ⟨"/p/docset"⟩) storyProject =
        .ok r storyDocset ∧
      (r.source = .scanned ∧ r.included = some ⟨"/p/docset/storybook"⟩) ∧
      run .bare {} scriptConfig (docsetRequest ⟨"/p/docset"⟩) storyDocset =
        .ok { r with report } storyDocset := by
  have hrun : ((run .bare {} scriptConfig (docsetRequest ⟨"/p/docset"⟩)).outcome? storyProject).any
      (fun (r, after) => (r.source = .scanned ∧ r.included = some ⟨"/p/docset/storybook"⟩) ∧
        after.entries = storyDocset.entries ∧ after.here = storyDocset.here) = true := by
    decide +kernel
  obtain ⟨⟨r, after⟩, hr, hparts⟩ := (Option.any_eq_true _ _).mp hrun
  obtain ⟨hsource, hentries, hhere⟩ := of_decide_eq_true hparts
  have hafter : after = storyDocset := by
    cases after
    exact congr (congrArg _ hentries) hhere
  subst hafter
  have hroot : (Survey.resolveFolder storyProject ⟨"/p"⟩).toOption = some ⟨"/p"⟩ := by
    decide +kernel
  have hok := FileAction.outcome?_eq_some_iff.mp hr
  obtain ⟨report, hagain⟩ := run_again_of_settled storyProject_wellFormed rfl rfl
    (except_toOption_eq_some_iff.mp hroot) hok storyDocset_settled
  exact ⟨r, report, hok, hsource, hagain⟩

/-- A project whose built storybook holds a story module, and that has none of its own. -/
def bundledStory : FileSystem :=
  { entries :=
      [(["p"], .folder),
        (["storybook-static", "p"], .folder),
        (["a.stories.js", "storybook-static", "p"],
          .file "storiesOf('A').add('x')".toUTF8 false)]
    here := [] }

/-- The first build leaves the storybook out and finds no story; the second one finds the copy that
the first one made. -/
theorem run_again_finds_copy :
    ∃ r after r' after',
      run .bare {} {} (docsetRequest ⟨"/p/docset"⟩) bundledStory = .ok r after ∧
      run .bare {} {} (docsetRequest ⟨"/p/docset"⟩) after = .ok r' after' ∧
      (r.source = .degraded ∧ r'.source = .scanned) ∧ r.entries ≠ r'.entries := by
  have hrun : ((run .bare {} {} (docsetRequest ⟨"/p/docset"⟩)).outcome? bundledStory).any
      (fun first => ((run .bare {} {} (docsetRequest ⟨"/p/docset"⟩)).outcome? first.2).any
        fun second => (first.1.source = .degraded ∧ second.1.source = .scanned) ∧
          first.1.entries ≠ second.1.entries) = true := by
    decide +kernel
  obtain ⟨⟨r, after⟩, hfirst, hrest⟩ := (Option.any_eq_true _ _).mp hrun
  obtain ⟨⟨r', after'⟩, hsecond, hparts⟩ := (Option.any_eq_true _ _).mp hrest
  exact ⟨r, after, r', after', FileAction.outcome?_eq_some_iff.mp hfirst,
    FileAction.outcome?_eq_some_iff.mp hsecond, of_decide_eq_true hparts⟩

end Build

end Docset
