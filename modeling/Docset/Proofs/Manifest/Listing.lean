import Docset.Manifest.Basic

/-!
# What a manifest lists

Scanned groups are listed as the stories they hold, one for each variant, so everything
about manifests is said of lists of stories. A manifest lists nothing exactly if every
story is of the introductory page.
-/
namespace Docset

namespace Story

/-- The stories of a scanned group, with ids made from the names. -/
def Group.stories (g : Group) : List Metadata :=
  g.variants.map fun v => ⟨storyId g.name v, g.name, v⟩

end Story

namespace KeyMap

variable {α : Type}

theorem isEmpty_insert (m : KeyMap α) (key : String) (value : α) :
    (m.insert key value).isEmpty = false := by
  change (insertPair key value m.pairs).isEmpty = false
  cases m.pairs with
  | nil => rfl
  | cons p rest =>
      simp only [insertPair]
      split
      · rfl
      · split <;> rfl

end KeyMap

namespace Manifest
open Story (Metadata Group isIntroduction displayPath storyUrl)

/-- Lists stories after those already listed. -/
def listing (m : Manifest) (stories : List Metadata) : Manifest :=
  stories.foldl (fun m s => m.insertStory s.kind s.name s.id) m

theorem ofStories_eq (stories : List Metadata) : ofStories stories = empty.listing stories := rfl

theorem listing_append (m : Manifest) (first second : List Metadata) :
    m.listing (first ++ second) = (m.listing first).listing second :=
  List.foldl_append

theorem listing_group (m : Manifest) (g : Group) :
    g.variants.foldl (fun m v => m.insertStory g.name v (Story.storyId g.name v)) m =
      m.listing g.stories := by
  rw [listing, Group.stories, List.foldl_map]

theorem ofGroups_eq (groups : List Group) :
    ofGroups groups = ofStories (groups.flatMap Group.stories) := by
  have hfrom : ∀ m : Manifest,
      groups.foldl (fun m g => g.variants.foldl
        (fun m v => m.insertStory g.name v (Story.storyId g.name v)) m) m =
        m.listing (groups.flatMap Group.stories) := by
    induction groups with
    | nil => intro m; rfl
    | cons g groups ih =>
        intro m
        rw [List.foldl_cons, ih, listing_group, List.flatMap_cons, listing_append]
  exact hfrom empty

theorem isEmpty_listing (m : Manifest) (stories : List Metadata) :
    (m.listing stories).isEmpty = (m.isEmpty && stories.all fun s => isIntroduction s.kind) := by
  induction stories generalizing m with
  | nil => simp [listing]
  | cons s stories ih =>
      have hstep : m.listing (s :: stories) = (m.insertStory s.kind s.name s.id).listing stories :=
        rfl
      rw [hstep, ih, insertStory, List.all_cons]
      split
      · rename_i hintro
        simp [hintro]
      · rename_i hintro
        have hfilled := m.entries.isEmpty_insert (displayPath s.kind s.name) (storyUrl s.id)
        simp [isEmpty, hfilled, hintro]

theorem isEmpty_ofStories_eq_false_iff {stories : List Metadata} :
    (ofStories stories).isEmpty = false ↔ ∃ s ∈ stories, isIntroduction s.kind = false := by
  rw [ofStories_eq, isEmpty_listing]
  have hempty : empty.isEmpty = true := rfl
  simp [hempty]

theorem isEmpty_ofGroups_eq_false_iff {groups : List Group} :
    (ofGroups groups).isEmpty = false ↔
      ∃ g ∈ groups, g.variants ≠ [] ∧ isIntroduction g.name = false := by
  rw [ofGroups_eq, isEmpty_ofStories_eq_false_iff]
  constructor
  · rintro ⟨s, hs, hintro⟩
    obtain ⟨g, hg, hsg⟩ := List.mem_flatMap.mp hs
    obtain ⟨v, hv, rfl⟩ := List.mem_map.mp hsg
    exact ⟨g, hg, List.ne_nil_of_mem hv, hintro⟩
  · rintro ⟨g, hg, hvariants, hintro⟩
    obtain ⟨v, hv⟩ := List.exists_mem_of_ne_nil _ hvariants
    exact ⟨_, List.mem_flatMap.mpr ⟨g, hg, List.mem_map.mpr ⟨v, hv, rfl⟩⟩, hintro⟩

theorem get?_storybook_degraded :
    degraded.entries.get? "Storybook" = some (Story.viewerRoot ++ "/index.html") := by
  rw [degraded, KeyMap.get?_insert, if_pos rfl]

end Manifest

end Docset
