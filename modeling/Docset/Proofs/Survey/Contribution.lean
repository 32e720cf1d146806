import Docset.Proofs.Files.Order
import Docset.Proofs.Files.Search
import Docset.Proofs.Manifest.LastWins
import Docset.Survey.Run

/-!
# What modules contribute to a survey

The manifest of a survey is that of the stories of its modules, one module after the other.
A module that cannot be read or scanned, or that tells of the introductory page alone,
contributes nothing. So a survey of a tree that has grown gives the same manifest, if no
module that contributes something is new or changed.
-/
namespace Docset

open FileSystem

variable {fs after : FileSystem} {P : Location → Prop} {o : Scan.Options}

namespace Survey

/-- The stories of groups that a manifest lists. -/
def listed (groups : List Story.Group) : List Story.Metadata :=
  (groups.flatMap Story.Group.stories).filter fun s => !Story.isIntroduction s.kind

theorem listed_append (first second : List Story.Group) :
    listed (first ++ second) = listed first ++ listed second := by
  rw [listed, List.flatMap_append, List.filter_append]
  rfl

/-- The stories that a module with these contents contributes to a manifest. -/
def storiesIn (o : Scan.Options) (bytes : ByteArray) : List Story.Metadata :=
  match String.fromUTF8? bytes with
  | none => []
  | some text =>
      match Scan.scan o text with
      | .error _ => []
      | .ok groups => listed groups

def silent (o : Scan.Options) (bytes : ByteArray) : Bool := (storiesIn o bytes).isEmpty

/-- The stories that the module at a path contributes. -/
def storiesAt (fs : FileSystem) (o : Scan.Options) (p : Path) : List Story.Metadata :=
  match fs.read p with
  | .ok bytes => storiesIn o bytes
  | .error _ => []

theorem storiesAt_eq_nil {p : Path} (h : fs.heard (silent o) p = false) :
    storiesAt fs o p = [] := by
  unfold heard at h
  unfold storiesAt
  split
  · rename_i bytes hread
    rw [hread] at h
    simpa [silent] using h
  · rfl

theorem listed_add (r : Report) (p : Path) :
    listed (r.add p (examine fs o p)).groups = listed r.groups ++ storiesAt fs o p := by
  unfold examine readText storiesAt
  cases hread : fs.read p with
  | error e => simp [Report.add, Report.groups]
  | ok bytes =>
      unfold storiesIn
      cases htext : String.fromUTF8? bytes with
      | none => simp [Report.add, Report.groups, htext]
      | some text =>
          cases hscan : Scan.scan o text with
          | error e => simp [Report.add, Report.groups, htext, hscan]
          | ok groups => simp [Report.add, Report.groups, htext, hscan, listed_append]

/-- The manifest of a survey lists what its modules contribute, in order. -/
theorem manifest_scanFiles (paths : List Path) :
    (scanFiles fs o paths).manifest = .ofStories (paths.flatMap (storiesAt fs o)) := by
  have hfrom : ∀ r : Report,
      listed (paths.foldl (fun r p => r.add p (examine fs o p)) r).groups =
        listed r.groups ++ paths.flatMap (storiesAt fs o) := by
    induction paths with
    | nil => simp
    | cons p paths ih =>
        intro r
        rw [List.foldl_cons, ih, listed_add, List.flatMap_cons, List.append_assoc]
  have hlisted : listed (scanFiles fs o paths).groups = paths.flatMap (storiesAt fs o) := hfrom {}
  rw [← hlisted, Report.manifest, Manifest.ofGroups_eq, ← Manifest.ofStories_filter]
  rfl

theorem flatMap_storiesAt (paths : List Path) :
    paths.flatMap (storiesAt fs o) =
      (paths.filter (fs.heard (silent o))).flatMap (storiesAt fs o) := by
  induction paths with
  | nil => rfl
  | cons p paths ih =>
      cases hheard : fs.heard (silent o) p with
      | true => rw [List.filter_cons_of_pos hheard, List.flatMap_cons, List.flatMap_cons, ih]
      | false =>
          rw [List.filter_cons_of_neg (by simp [hheard]), List.flatMap_cons,
            storiesAt_eq_nil hheard, ih, List.nil_append]

/-- A survey gives the same manifest, if the tree has grown by nothing that contributes to it. -/
theorem manifest_scanFolder (host : Host) {c : Config} {folder : Path} (h : Grows P fs after)
    (hfs : fs.WellFormed) (hpresent : after.present folder → fs.present folder)
    (hsame : ∀ {filter place e}, c.filter? = some filter → fs.stat folder = .ok (place, e) →
      filter.Unmoved (silent c.scan) place fs after) :
    (scanFolder host after c folder).map Report.manifest =
      (scanFolder host fs c folder).map Report.manifest := by
  unfold scanFolder
  cases hfilter : c.filter? with
  | none => rfl
  | some filter =>
      obtain ⟨found, hfound⟩ := fs.exists_finds filter folder
      obtain ⟨found', hfound', hheard⟩ := h.finds hfs hpresent (hsame hfilter) hfound
      have hread : ∀ p ∈ (found.filter (fs.heard (silent c.scan))).mergeSort Path.le,
          storiesAt after c.scan p = storiesAt fs c.scan p := by
        intro p hp
        obtain ⟨hp, hcounts⟩ := List.mem_filter.mp (List.mem_mergeSort.mp hp)
        unfold storiesAt
        rw [h.read_eq hfs (hsame hfilter) hfound hp hcounts]
      cases prepare host c with
      | error e => rfl
      | ok u =>
          refine congrArg Except.ok ?_
          rw [manifest_scanFiles, manifest_scanFiles, hfound.findFiles_eq, hfound'.findFiles_eq,
            flatMap_storiesAt, Path.filter_mergeSort, hheard,
            flatMap_storiesAt (found.mergeSort _), Path.filter_mergeSort,
            List.flatMap_congr hread]

end Survey

end Docset
