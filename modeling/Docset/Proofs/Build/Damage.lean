import Docset.Proofs.Build.Inclusion
import Docset.Proofs.Files.Targets

/-!
# What an inclusion does to the files that are there

An inclusion writes to the paths of its copy and of its additions, and nothing keeps these
from leading back to the folder that is included. So the files of that folder are safe, after
a failure as well, as far as none of these paths leads to them. A folder that is included
under its own path is emptied.
-/
namespace Docset.Build

open FileSystem

variable {i : Inclusion} {output copy : Path} {fs : FileSystem} {place dest l : Location}
  {bytes : ByteArray} {runnable : Bool}

/-- The paths that an inclusion writes to: those of the copy and those of the additions. -/
def Inclusion.Targets (i : Inclusion) (output : Path) (place : Location) (fs : FileSystem)
    (p : Path) : Prop :=
  CopyTargets place (output.join ⟨i.name⟩) fs p ∨
    ∃ a ∈ i.additions, p = (output.join ⟨i.name⟩).join a.1

theorem Inclusion.stable_targets : Stable (i.Targets output place) := by
  rintro fs after p k (hcopy | hadd)
  · exact .inl (stable_copyTargets _ _ _ k hcopy)
  · exact .inr hadd

theorem writesTo_addTo (addition : Path × String) :
    WritesTo (fun _ p => p = copy.join addition.1) fs ((addTo copy addition).left fs) := by
  obtain ⟨file, text⟩ := addition
  by_cases hfile : fs.isFile (copy.join file)
  · obtain ⟨l, old, runnable, hstat⟩ := isFile_iff.mp hfile
    have htouch : fs.Touch l (.file (old ++ text.toUTF8) runnable) :=
      .refill (get?_of_resolve (stat_eq_ok_iff.mp hstat))
    obtain ⟨e, he, -⟩ := htouch.keeps.lookUp hstat
    rw [FileAction.left_of_ok (addTo_of_file text hstat)]
    exact Grows.single htouch (.inr ⟨_, e, rfl, he⟩)
  · rw [FileAction.left_of_ok (addTo_of_not_isFile text hfile)]
    exact .refl fs

theorem writesTo_additions (additions : List (Path × String)) :
    WritesTo (fun _ p => ∃ a ∈ additions, p = copy.join a.1) fs
      ((additions.forM (addTo copy)).left fs) := by
  induction additions generalizing fs with
  | nil => exact .refl fs
  | cons a additions ih =>
      refine .bind (fun _ _ _ _ hp => hp) ?_ fun _ _ => ?_
      · refine (writesTo_addTo a).mono ?_
        rintro p rfl
        exact ⟨a, by simp, rfl⟩
      · refine ih.mono ?_
        rintro p ⟨b, hb, rfl⟩
        exact ⟨b, List.mem_cons_of_mem _ hb, rfl⟩

/-- An inclusion writes to its targets and where nothing was, however far it gets. -/
theorem writesTo_perform (hfs : fs.WellFormed) (hstat : fs.stat i.source = .ok (place, .folder)) :
    WritesTo (i.Targets output place) fs ((i.perform output).left fs) := by
  have hunfold : i.perform output = (do
      let _ ← copyTree i.source (output.join ⟨i.name⟩)
      i.additions.forM (addTo (output.join ⟨i.name⟩))
      return output.join ⟨i.name⟩) := rfl
  rw [hunfold]
  refine .bind i.stable_targets ?_ fun _ _ => .bind i.stable_targets ?_ fun _ _ => .refl _
  · unfold copyTree
    rw [FileAction.left_mapError]
    exact (writesTo_copyTree hfs hstat).mono fun p => .inl
  · exact (writesTo_additions _).mono fun p => .inr

/-- In a folder without links, apart from the one that is included, the targets do not lead back. -/
theorem not_aimed_of_apart (hfs : fs.WellFormed)
    (htarget : fs.stat (output.join ⟨i.name⟩) = .ok (dest, .folder))
    (apart : ¬ place <:+ dest ∧ ¬ dest <:+ place) (hlinkless : fs.Linkless dest)
    (hadditions : ∀ a ∈ i.additions, a.1.Inner)
    (hl : place <:+ l) : ¬ Aimed (i.Targets output place) fs l := by
  rintro ⟨p, e, ⟨names, bytes, runnable, hget, rfl⟩ | ⟨a, ha, rfl⟩, hstat⟩
  · have hnames : ∀ name ∈ names, IsName name := fun name hmem =>
      hfs.isName_of_mem hget name (by simp [hmem])
    exact not_both apart hl (hlinkless.suffix_of_stat_below htarget hnames hstat)
  · rw [hlinkless.eq_of_stat_join htarget (hadditions a ha) hstat] at hl
    exact not_both apart hl (List.suffix_append _ _)

/-- Whatever comes of an inclusion, a file that was there is still a file, and it is the same as
before unless a target of the inclusion leads to it. No target leads to the included folder if
the copy is apart from it and has no links, and no addition leaves the copy. -/
theorem perform_spares_untargeted_files (hfs : fs.WellFormed)
    (hstat : fs.stat i.source = .ok (place, .folder))
    (hget : fs.get? l = some (.file bytes runnable)) :
    (∃ bytes' runnable',
      ((i.perform output).left fs).get? l = some (.file bytes' runnable')) ∧
    (¬ Aimed (i.Targets output place) ((i.perform output).left fs) l →
      ((i.perform output).left fs).get? l = some (.file bytes runnable)) ∧
    ∀ dest, ((i.perform output).left fs).stat (output.join ⟨i.name⟩) = .ok (dest, .folder) →
      ¬ place <:+ dest ∧ ¬ dest <:+ place → ((i.perform output).left fs).Linkless dest →
      (∀ a ∈ i.additions, a.1.Inner) → place <:+ l →
      ((i.perform output).left fs).get? l = some (.file bytes runnable) := by
  have hwrites : WritesTo (i.Targets output place) fs ((i.perform output).left fs) :=
    writesTo_perform hfs hstat
  have hspared : ¬ Aimed (i.Targets output place) ((i.perform output).left fs) l →
      ((i.perform output).left fs).get? l = some (.file bytes runnable) := by
    intro haimed
    rw [← hget]
    refine Grows.get?_eq hwrites ?_
    rintro (hnone | h)
    · rw [hget] at hnone
      cases hnone
    · exact haimed h
  refine ⟨?_, hspared, fun dest htarget apart hlinkless hadditions hl => hspared ?_⟩
  · obtain ⟨e, he, halike⟩ := hwrites.keeps.get? hget
    obtain ⟨bytes', runnable', rfl⟩ := halike.exists_file
    exact ⟨bytes', runnable', he⟩
  · exact not_aimed_of_apart (Grows.wellFormed hwrites hfs) htarget apart hlinkless hadditions hl

/-- A storybook to be copied over an older copy in which a folder has the name of a file. -/
def clashing : FileSystem :=
  { entries :=
      [(["src"], .folder),
        (["app.js", "src"], .file "run()".toUTF8 false),
        (["index.html", "src"], .file "<html>".toUTF8 false),
        (["out"], .folder),
        (["storybook", "out"], .folder),
        (["index.html", "storybook", "out"], .folder)]
    here := [] }

def clashingInclusion : Inclusion :=
  { source := ⟨"src"⟩, name := "storybook", additions := [(⟨"index.html"⟩, "<style>")] }

/-- The inclusion fails after its first file, and its source is as it was. -/
theorem perform_spares_untargeted_files_after_failure :
    (clashingInclusion.perform ⟨"out"⟩).result? clashing = none ∧
      ((clashingInclusion.perform ⟨"out"⟩).left clashing).get? ["app.js", "storybook", "out"] =
        some (.file "run()".toUTF8 false) ∧
      ((clashingInclusion.perform ⟨"out"⟩).left clashing).get? ["index.html", "src"] =
        some (.file "<html>".toUTF8 false) := by
  have hfs : clashing.WellFormed := ⟨by decide +kernel, by decide +kernel⟩
  have hstat : (clashing.stat clashingInclusion.source).toOption = some (["src"], .folder) := by
    decide +kernel
  have htarget : (((clashingInclusion.perform ⟨"out"⟩).left clashing).stat
      (Path.join ⟨"out"⟩ ⟨clashingInclusion.name⟩)).toOption =
        some (["storybook", "out"], .folder) := by decide +kernel
  have hlinkless : ((clashingInclusion.perform ⟨"out"⟩).left clashing).Linkless
      ["storybook", "out"] := by
    intro names t hget
    have : Entry.copied (.link t) := copied_of_entries (by decide +kernel) names hget
    cases this
  refine ⟨by decide +kernel, by decide +kernel, ?_⟩
  exact (perform_spares_untargeted_files hfs (except_toOption_eq_some_iff.mp hstat)
    (by decide +kernel)).2.2 _ (except_toOption_eq_some_iff.mp htarget) (by decide +kernel)
      hlinkless (by decide +kernel) (by decide +kernel)

def builtInPlace : FileSystem :=
  { entries :=
      [(["out"], .folder),
        (["storybook", "out"], .folder),
        (["index.html", "storybook", "out"], .file "<html>".toUTF8 false)]
    here := [] }

/-- A folder that is included under its own path succeeds, and leaves its file empty. -/
theorem perform_empties_source_built_in_place :
    ∃ after, Inclusion.perform ⟨⟨"out/storybook"⟩, "storybook", []⟩ ⟨"out"⟩ builtInPlace =
        .ok ⟨"out/storybook"⟩ after ∧
      builtInPlace.read ⟨"out/storybook/index.html"⟩ = .ok "<html>".toUTF8 ∧
      after.read ⟨"out/storybook/index.html"⟩ = .ok .empty := by
  have hrun : ((Inclusion.perform ⟨⟨"out/storybook"⟩, "storybook", []⟩ ⟨"out"⟩).outcome?
      builtInPlace).any (fun (copy, after) => copy = ⟨"out/storybook"⟩ ∧
        (after.read ⟨"out/storybook/index.html"⟩).toOption = some .empty) = true := by
    decide +kernel
  have hread : (builtInPlace.read ⟨"out/storybook/index.html"⟩).toOption =
      some "<html>".toUTF8 := by decide +kernel
  obtain ⟨⟨copy, after⟩, hafter, hparts⟩ := (Option.any_eq_true _ _).mp hrun
  obtain ⟨rfl, hempty⟩ := of_decide_eq_true hparts
  exact ⟨after, FileAction.outcome?_eq_some_iff.mp hafter, except_toOption_eq_some_iff.mp hread,
    except_toOption_eq_some_iff.mp hempty⟩

end Docset.Build
