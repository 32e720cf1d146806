import Docset.Build.Run
import Docset.Proofs.Files.Action
import Docset.Proofs.Manifest.LastWins

/-!
# What the response to a build says

A build may ask the project's own tools, and surveys the sources if it did not ask them
or they failed. What it answers is settled by the outcome of these two steps: `respond`
gives the answer to any outcome of either, and a build that succeeds answers that, apart
from naming what it wrote. The parts of an answer are consistent with the outcome and
with each other, whatever the stories and the report are. What the tools do is up to the
host, so nothing is said here about which outcome it is.
-/
namespace Docset.Build

/-- What became of asking the project's tools for their stories. -/
inductive Attempt where
  | skipped
  | failed (cause : Error)
  | extracted (stories : List Story.Metadata)

namespace Attempt

def cause? : Attempt → Option Error
  | failed cause => some cause
  | _ => none

/-- Whether the sources are surveyed after the attempt. -/
def Falls : Attempt → Prop
  | extracted _ => False
  | _ => True

end Attempt

/-- What is answered if the attempt and the survey of the sources end like this. -/
def respond : Attempt → Except Error Survey.Report → Except Error Response
  | .skipped, surveyed => surveyed.map (ofReport · none)
  | .failed cause, surveyed => surveyed.map (ofReport · (some cause.message))
  | .extracted stories, _ => .ok (ofStories stories)

/-- The parts of a response agree with the outcome of the attempt and of the survey, and with
each other. -/
structure Consistent (a : Attempt) (surveyed : Except Error Survey.Report) (r : Response) :
    Prop where
  entries_ne : r.entries.isEmpty = false
  externalError_eq : r.externalError = a.cause?.map Error.message
  report_isSome : r.report.isSome ↔ a.Falls
  report_eq : ∀ report, r.report = some report → surveyed = .ok report
  external_iff : r.source = .external ↔
    ∃ stories, a = .extracted stories ∧ ∃ s ∈ stories, Story.isIntroduction s.kind = false
  external_entries : ∀ stories, r.source = .external → a = .extracted stories →
    r.entries = .ofStories stories
  scanned_iff : r.source = .scanned ↔
    ∃ report, r.report = some report ∧
      ∃ g ∈ report.groups, g.variants ≠ [] ∧ Story.isIntroduction g.name = false
  scanned_entries : ∀ report, r.source = .scanned → r.report = some report →
    r.entries = .ofGroups report.groups
  degraded_iff : r.source = .degraded ↔ r.entries = .degraded
  storybook_iff : r.source = .degraded ↔ (r.entries.entries.get? "Storybook").isSome

section Degrading
variable {m : Manifest} {source : Source}

theorem isEmpty_orDegraded : (orDegraded m source).1.isEmpty = false := by
  unfold orDegraded
  split
  · rfl
  · rename_i hm
    simpa using hm

theorem orDegraded_source_iff (hsource : source ≠ .degraded) :
    (orDegraded m source).2 = source ↔ m.isEmpty = false := by
  unfold orDegraded
  split
  · rename_i hm
    simp [hm, hsource.symm]
  · rename_i hm
    simpa using hm

theorem orDegraded_source_cases :
    (orDegraded m source).2 = source ∨ (orDegraded m source).2 = .degraded := by
  unfold orDegraded
  split
  · exact .inr rfl
  · exact .inl rfl

theorem orDegraded_entries (hsource : source ≠ .degraded) (h : (orDegraded m source).2 = source) :
    (orDegraded m source).1 = m := by
  unfold orDegraded at h ⊢
  split at h
  · exact absurd h.symm hsource
  · rename_i hm
    rw [if_neg hm]

/-- A manifest without the key of the generic entry is told apart from the generic one. -/
theorem orDegraded_storybook_iff (hsource : source ≠ .degraded)
    (hm : m.entries.get? "Storybook" = none) :
    (orDegraded m source).2 = .degraded ↔
      ((orDegraded m source).1.entries.get? "Storybook").isSome := by
  unfold orDegraded
  split
  · simp [Manifest.get?_storybook_degraded]
  · simp [hm, hsource]

theorem orDegraded_degraded_iff (hsource : source ≠ .degraded)
    (hm : m.entries.get? "Storybook" = none) :
    (orDegraded m source).2 = .degraded ↔ (orDegraded m source).1 = .degraded := by
  constructor
  · intro h
    unfold orDegraded at h ⊢
    split at h
    · rename_i hempty
      rw [if_pos hempty]
    · exact absurd h hsource
  · intro h
    rw [orDegraded_storybook_iff hsource hm, h, Manifest.get?_storybook_degraded]
    rfl

end Degrading

theorem consistent_ofStories (stories : List Story.Metadata)
    (surveyed : Except Error Survey.Report) :
    Consistent (.extracted stories) surveyed (ofStories stories) := by
  have hkey := Manifest.get?_storybook_ofStories stories
  have hsource : Source.external ≠ .degraded := by decide
  refine
    { entries_ne := isEmpty_orDegraded
      externalError_eq := rfl
      report_isSome := by simp [ofStories, Attempt.Falls]
      report_eq := fun report h => by cases h
      external_iff := ?_
      external_entries := ?_
      scanned_iff := ?_
      scanned_entries := fun report _ h => by cases h
      degraded_iff := orDegraded_degraded_iff hsource hkey
      storybook_iff := orDegraded_storybook_iff hsource hkey }
  · refine (orDegraded_source_iff hsource).trans ?_
    rw [Manifest.isEmpty_ofStories_eq_false_iff]
    constructor
    · intro h
      exact ⟨stories, rfl, h⟩
    · rintro ⟨found, heq, h⟩
      cases heq
      exact h
  · intro found h heq
    cases heq
    exact orDegraded_entries hsource h
  · constructor
    · intro h
      change (orDegraded (Manifest.ofStories stories) .external).2 = .scanned at h
      rcases @orDegraded_source_cases (Manifest.ofStories stories) .external with hs | hs
      · rw [hs] at h
        cases h
      · rw [hs] at h
        cases h
    · rintro ⟨report, h, -⟩
      cases h

theorem consistent_ofReport (report : Survey.Report) {a : Attempt} (ha : a.Falls) :
    Consistent a (.ok report) (ofReport report (a.cause?.map Error.message)) := by
  have hkey : report.manifest.entries.get? "Storybook" = none := by
    rw [Survey.Report.manifest, Manifest.ofGroups_eq]
    exact Manifest.get?_storybook_ofStories _
  have hsource : Source.scanned ≠ .degraded := by decide
  refine
    { entries_ne := isEmpty_orDegraded
      externalError_eq := rfl
      report_isSome := by simp [ofReport, ha]
      report_eq := fun found h => by cases h; rfl
      external_iff := ?_
      external_entries := ?_
      scanned_iff := ?_
      scanned_entries := ?_
      degraded_iff := orDegraded_degraded_iff hsource hkey
      storybook_iff := orDegraded_storybook_iff hsource hkey }
  · constructor
    · intro h
      change (orDegraded report.manifest .scanned).2 = .external at h
      rcases @orDegraded_source_cases report.manifest .scanned with hs | hs
      · rw [hs] at h
        cases h
      · rw [hs] at h
        cases h
    · rintro ⟨stories, rfl, -⟩
      exact ha.elim
  · rintro stories h rfl
    exact ha.elim
  · refine (orDegraded_source_iff hsource).trans ?_
    rw [Survey.Report.manifest, Manifest.isEmpty_ofGroups_eq_false_iff]
    constructor
    · intro h
      exact ⟨report, rfl, h⟩
    · rintro ⟨found, heq, h⟩
      cases heq
      exact h
  · intro found h heq
    cases heq
    exact orDegraded_entries hsource h

theorem consistent_of_respond {a : Attempt} {surveyed : Except Error Survey.Report} {r : Response}
    (h : respond a surveyed = .ok r) : Consistent a surveyed r := by
  cases a with
  | extracted stories =>
      cases h
      exact consistent_ofStories stories surveyed
  | skipped =>
      cases surveyed with
      | error e => cases h
      | ok report =>
          cases h
          exact consistent_ofReport report (a := .skipped) trivial
  | failed cause =>
      cases surveyed with
      | error e => cases h
      | ok report =>
          cases h
          exact consistent_ofReport report (a := .failed cause) trivial

section Running
variable {host : Host} {setting : Command.Setting} {c : Config} {root : Path}
  {fs after : FileSystem}

/-- The attempt that a build makes on `fs`, and what the tools leave behind. -/
inductive Attempted (host : Host) (setting : Command.Setting) (c : Config) (root : Path)
    (fs : FileSystem) : Bool → Attempt → FileSystem → Prop
  | skipped : Attempted host setting c root fs true .skipped fs
  | failed {cause : Error} {after : FileSystem} :
      extract host setting root c fs = .error cause after →
      Attempted host setting c root fs false (.failed cause) after
  | extracted {stories : List Story.Metadata} {after : FileSystem} :
      extract host setting root c fs = .ok stories after →
      Attempted host setting c root fs false (.extracted stories) after

theorem survey_eq_ok_iff {text : Option String} {r : Response} :
    survey host c root text fs = .ok r after ↔
      (Survey.scanFolder host fs c (root.join c.sourceRoot)).map (ofReport · text) = .ok r ∧
        fs = after :=
  FileAction.inspect_eq_ok_iff

theorem respond_of_compose {skip : Bool} {r : Response}
    (h : compose host setting c root skip fs = .ok r after) :
    ∃ a, Attempted host setting c root fs skip a after ∧
      respond a (Survey.scanFolder host after c (root.join c.sourceRoot)) = .ok r := by
  unfold compose at h
  cases skip with
  | true =>
      obtain ⟨hr, rfl⟩ := survey_eq_ok_iff.mp h
      exact ⟨.skipped, .skipped, hr⟩
  | false =>
      obtain ⟨outcome, mid, hattempt, hrest⟩ := FileAction.bind_eq_ok_iff.mp h
      rcases FileAction.attempt_eq_ok_iff.mp hattempt with ⟨stories, rfl, hok⟩ | ⟨e, rfl, herror⟩
      · obtain ⟨rfl, rfl⟩ := FileAction.pure_eq_ok_iff.mp hrest
        exact ⟨.extracted stories, .extracted hok, rfl⟩
      · obtain ⟨hr, rfl⟩ := survey_eq_ok_iff.mp hrest
        exact ⟨.failed e, .failed herror, hr⟩

theorem deliver_response {output : Path} {r r' : Response}
    (h : deliver c root output r fs = .ok r' after) :
    ∃ file copy, r' = { r with manifestPath := file, included := copy } ∨
      r' = { r with manifestPath := file } := by
  unfold deliver at h
  obtain ⟨-, fs₁, -, h⟩ := FileAction.bind_eq_ok_iff.mp h
  obtain ⟨file, fs₂, -, h⟩ := FileAction.bind_eq_ok_iff.mp h
  obtain ⟨isFolder, fs₃, -, h⟩ := FileAction.bind_eq_ok_iff.mp h
  cases isFolder with
  | true =>
      obtain ⟨copy, fs₄, -, h⟩ := FileAction.bind_eq_ok_iff.mp h
      obtain ⟨rfl, -⟩ := FileAction.pure_eq_ok_iff.mp h
      exact ⟨some file, some copy, .inl rfl⟩
  | false =>
      obtain ⟨rfl, -⟩ := FileAction.pure_eq_ok_iff.mp h
      exact ⟨some file, none, .inr rfl⟩

/-- A build that succeeds has found its project folder, has made an attempt or skipped it, and
answers what is answered to how the attempt and the survey of the sources ended. -/
theorem respond_of_run {request : Request} {r : Response}
    (h : run host setting c request fs = .ok r after) :
    ∃ root a left answer, Survey.resolveFolder fs request.root = .ok root ∧
      Attempted host setting c root fs request.skipExternal a left ∧
      respond a (Survey.scanFolder host left c (root.join c.sourceRoot)) = .ok answer ∧
      ∃ file copy, r = { answer with manifestPath := file, included := copy } := by
  unfold run at h
  obtain ⟨root, fs₁, hinspect, h⟩ := FileAction.bind_eq_ok_iff.mp h
  obtain ⟨hroot, rfl⟩ := FileAction.inspect_eq_ok_iff.mp hinspect
  obtain ⟨answer, left, hcompose, h⟩ := FileAction.bind_eq_ok_iff.mp h
  obtain ⟨a, hattempt, hrespond⟩ := respond_of_compose hcompose
  refine ⟨root, a, left, answer, hroot, hattempt, hrespond, ?_⟩
  cases houtput : request.output with
  | some output =>
      rw [houtput] at h
      obtain ⟨file, copy, rfl | rfl⟩ := deliver_response h
      · exact ⟨file, copy, rfl⟩
      · exact ⟨file, answer.included, rfl⟩
  | none =>
      rw [houtput] at h
      obtain ⟨rfl, -⟩ := FileAction.pure_eq_ok_iff.mp h
      exact ⟨answer.manifestPath, answer.included, rfl⟩

end Running

/-- Whatever stories or error an attempt ends with, and whatever a survey reports, the answer is
consistent with it. On every host a build that succeeds gives this answer to how its own attempt and
its own survey ended, and adds only where it wrote. -/
theorem run_response_consistent :
    (∀ a surveyed answer, respond a surveyed = .ok answer → Consistent a surveyed answer) ∧
      ∀ host setting c request fs r after, run host setting c request fs = .ok r after →
        ∃ root a left answer, Survey.resolveFolder fs request.root = .ok root ∧
          Attempted host setting c root fs request.skipExternal a left ∧
          respond a (Survey.scanFolder host left c (root.join c.sourceRoot)) = .ok answer ∧
          (∃ file copy, r = { answer with manifestPath := file, included := copy }) ∧
          Consistent a (Survey.scanFolder host left c (root.join c.sourceRoot)) r := by
  refine ⟨fun _ _ _ => consistent_of_respond, ?_⟩
  intro host setting c request fs r after h
  obtain ⟨root, a, left, answer, hroot, hattempt, hrespond, file, copy, rfl⟩ := respond_of_run h
  have hconsistent := consistent_of_respond hrespond
  exact ⟨root, a, left, answer, hroot, hattempt, hrespond, ⟨file, copy, rfl⟩, { hconsistent with }⟩

/-- A project with a module of one story. -/
def smallProject : FileSystem :=
  { entries :=
      [(["p"], .folder),
        (["a.stories.js", "p"], .file "storiesOf('Example/A').add('x', fn)".toUTF8 false)]
    here := [] }

/-- The same project, with metadata of another story in its built storybook. -/
def extractedProject : FileSystem :=
  { smallProject with
    entries := smallProject.entries ++
      [(["storybook-static", "p"], .folder),
        (["stories.json", "storybook-static", "p"], .file
          ("\x7b\"stories\": \x7b\"b--y\": \x7b\"id\": \"b--y\", \"kind\": \"B\", " ++
            "\"name\": \"y\"\x7d\x7d\x7d").toUTF8 false)] }

/-- Both tools succeed and change nothing. -/
def trueConfig : Config := { buildCommand := ["true"], extractCommand := ["true"] }

/-- The tools succeed and leave metadata behind in the one project. In the other one they leave
nothing, and the sources are surveyed. -/
theorem run_response_consistent_small_project :
    (∃ r after, run .bare {} trueConfig { root := ⟨"/p"⟩ } extractedProject = .ok r after ∧
      (r.source = .external ∧ r.externalError = none ∧ r.report = none) ∧
      ∃ root a left, Attempted .bare {} trueConfig root extractedProject false a left ∧
        Consistent a (Survey.scanFolder .bare left trueConfig (root.join ⟨"."⟩)) r) ∧
    ∃ r after, run .bare {} trueConfig { root := ⟨"/p"⟩ } smallProject = .ok r after ∧
      (r.source = .scanned ∧ r.externalError.isSome ∧ r.entryCount = 1) ∧
      ∃ root a left, Attempted .bare {} trueConfig root smallProject false a left ∧
        Consistent a (Survey.scanFolder .bare left trueConfig (root.join ⟨"."⟩)) r := by
  have hanswer : ∀ fs r after, run .bare {} trueConfig { root := ⟨"/p"⟩ } fs = .ok r after →
      ∃ root a left, Attempted .bare {} trueConfig root fs false a left ∧
        Consistent a (Survey.scanFolder .bare left trueConfig (root.join ⟨"."⟩)) r := by
    intro fs r after h
    obtain ⟨root, a, left, -, -, hattempt, -, -, hr⟩ :=
      run_response_consistent.2 _ _ _ _ _ _ _ h
    exact ⟨root, a, left, hattempt, hr⟩
  constructor
  · have hrun : ((run .bare {} trueConfig { root := ⟨"/p"⟩ }).result? extractedProject).any
        (fun r => r.source = .external ∧ r.externalError = none ∧ r.report = none) = true := by
      decide +kernel
    obtain ⟨r, hr, hparts⟩ := (Option.any_eq_true _ _).mp hrun
    obtain ⟨after, hafter⟩ := FileAction.result?_eq_some_iff.mp hr
    exact ⟨r, after, hafter, of_decide_eq_true hparts, hanswer _ _ _ hafter⟩
  · have hrun : ((run .bare {} trueConfig { root := ⟨"/p"⟩ }).result? smallProject).any
        (fun r => r.source = .scanned ∧ r.externalError.isSome ∧ r.entryCount = 1) = true := by
      decide +kernel
    obtain ⟨r, hr, hparts⟩ := (Option.any_eq_true _ _).mp hrun
    obtain ⟨after, hafter⟩ := FileAction.result?_eq_some_iff.mp hr
    exact ⟨r, after, hafter, of_decide_eq_true hparts, hanswer _ _ _ hafter⟩

end Docset.Build
