import Docset.Proofs.KeyMap
import Docset.Proofs.Manifest.Listing

/-!
# Later stories win

A manifest is the map of its stories' entries, less those of the introductory page. Under
each display path it has the address of the last story that is listed there, so stories
that come later lay their manifest over that of the earlier ones. The order in which
stories come makes a difference only where two of them are listed under one display path
with different ids; where there are none, stories extracted in the order of their keys and
groups scanned in the order of the source have one manifest. Every display path has a slash
in it; the key of the generic entry has none, so no story is ever listed under it.
-/
namespace Docset

namespace Story.Metadata

/-- A story is listed under its display path, unless it is of the introductory page. -/
def ListedUnder (s : Metadata) (key : String) : Prop :=
  isIntroduction s.kind = false ∧ displayPath s.kind s.name = key

theorem listedUnder_iff {s : Metadata} {key : String} :
    s.ListedUnder key ↔ (!isIntroduction s.kind && displayPath s.kind s.name = key) = true := by
  simp [ListedUnder]

def entry (s : Metadata) : String × String := (displayPath s.kind s.name, storyUrl s.id)

end Story.Metadata

theorem Story.slash_mem_displayPath (kind name : String) :
    '/' ∈ (displayPath kind name).toList := by
  simp [displayPath]

theorem Story.storyUrl_injective {id id' : String} (h : storyUrl id = storyUrl id') : id = id' :=
  (String.append_right_inj _).mp h

namespace Manifest
open Story (Metadata Group isIntroduction displayPath storyUrl)

variable {key : String} {stories : List Metadata}

def entriesOf (stories : List Metadata) : List (String × String) :=
  (stories.filter fun s => !isIntroduction s.kind).map Metadata.entry

theorem ofStories_eq_ofList (stories : List Metadata) :
    ofStories stories = ⟨KeyMap.ofList (entriesOf stories)⟩ := by
  have hstep (m : KeyMap String) (s : Metadata) :
      insertStory ⟨m⟩ s.kind s.name s.id =
        ⟨if (!isIntroduction s.kind) = true then m.insert s.entry.1 s.entry.2 else m⟩ := by
    cases hintro : isIntroduction s.kind <;> simp [insertStory, hintro, Metadata.entry]
  rw [KeyMap.ofList, KeyMap.insertAll, entriesOf, List.foldl_map, List.foldl_filter]
  exact List.foldl_hom Manifest.mk hstep

theorem get?_ofStories (stories : List Metadata) (key : String) :
    (ofStories stories).entries.get? key =
      (stories.reverse.find? fun s =>
        !isIntroduction s.kind && displayPath s.kind s.name = key).map fun s => storyUrl s.id := by
  rw [ofStories_eq_ofList, KeyMap.get?_ofList, entriesOf, ← List.map_reverse, ← List.filter_reverse,
    List.find?_map, List.find?_filter, Option.map_map]
  simp only [Bool.decide_and, Bool.decide_eq_true]
  rfl

/-- A manifest is the last-wins image of stories: it answers to the display paths of the listed ones
only, under each with the address of the last, and has one entry for each of them. -/
structure LastWins (m : Manifest) (stories : List Metadata) : Prop where
  answers_iff : ∀ key, (m.entries.get? key).isSome ↔ ∃ s ∈ stories, s.ListedUnder key
  answer_iff : ∀ key url, m.entries.get? key = some url ↔
    ∃ before s after, stories = before ++ s :: after ∧ s.ListedUnder key ∧
      (∀ later ∈ after, ¬ later.ListedUnder key) ∧ url = storyUrl s.id
  size_eq : m.size =
    ((stories.filter fun s => !isIntroduction s.kind).map
      fun s => displayPath s.kind s.name).toFinset.card

theorem lastWins_ofStories (stories : List Metadata) : LastWins (ofStories stories) stories where
  answers_iff key := by
    rw [get?_ofStories, Option.isSome_map, List.find?_isSome]
    simp [Metadata.ListedUnder]
  answer_iff key url := by
    rw [get?_ofStories, Option.map_eq_some_iff]
    constructor
    · rintro ⟨s, hfound, rfl⟩
      obtain ⟨hlisted, after, before, hsplit, hafter⟩ := List.find?_eq_some_iff_append.mp hfound
      refine ⟨before.reverse, s, after.reverse, ?_, Metadata.listedUnder_iff.mpr hlisted, ?_, rfl⟩
      · rw [← List.reverse_reverse stories, hsplit]
        simp
      · intro later hlater hkey
        simpa [Metadata.listedUnder_iff.mp hkey] using hafter later (List.mem_reverse.mp hlater)
    · rintro ⟨before, s, after, rfl, hlisted, hafter, rfl⟩
      refine ⟨s, List.find?_eq_some_iff_append.mpr ⟨Metadata.listedUnder_iff.mp hlisted, ?_⟩, rfl⟩
      refine ⟨after.reverse, before.reverse, by simp, fun later hlater => ?_⟩
      rw [Bool.not_eq_true', Bool.eq_false_iff]
      exact mt Metadata.listedUnder_iff.mpr (hafter later (List.mem_reverse.mp hlater))
  size_eq := by
    have hkeys : (stories.filter fun s => !isIntroduction s.kind).map
        (fun s => displayPath s.kind s.name) = (entriesOf stories).map (·.1) := by
      rw [entriesOf, List.map_map]
      rfl
    rw [size, ofStories_eq_ofList, hkeys]
    exact KeyMap.size_eq_card fun key => KeyMap.isSome_get?_ofList

/-- No story is listed under the key of the generic entry. -/
theorem get?_storybook_ofStories (stories : List Metadata) :
    (ofStories stories).entries.get? "Storybook" = none := by
  cases hget : (ofStories stories).entries.get? "Storybook" with
  | none => rfl
  | some url =>
      obtain ⟨s, -, -, hpath⟩ :=
        ((lastWins_ofStories stories).answers_iff "Storybook").mp (by rw [hget]; rfl)
      have hslash := Story.slash_mem_displayPath s.kind s.name
      rw [hpath] at hslash
      exact absurd hslash (by decide)

theorem ofStories_filter (stories : List Metadata) :
    ofStories (stories.filter fun s => !isIntroduction s.kind) = ofStories stories := by
  have hentries :
      entriesOf (stories.filter fun s => !isIntroduction s.kind) = entriesOf stories := by
    simp [entriesOf]
  rw [ofStories_eq_ofList, hentries, ofStories_eq_ofList]

/-- The first manifest with the entries of the second laid over it. -/
def overlay (m n : Manifest) : Manifest := ⟨m.entries.overlay n.entries⟩

theorem ofStories_append (first second : List Metadata) :
    ofStories (first ++ second) = (ofStories first).overlay (ofStories second) := by
  have hentries : entriesOf (first ++ second) = entriesOf first ++ entriesOf second := by
    rw [entriesOf, List.filter_append, List.map_append]
    rfl
  rw [ofStories_eq_ofList, hentries, KeyMap.ofList_append, ofStories_eq_ofList, ofStories_eq_ofList]
  rfl

/-- Scanned groups and extracted stories alike are listed with the last story under each display
path, and groups or stories that follow lay their manifest over the one before. -/
theorem ofGroups_ofStories_last_wins :
    (∀ groups, LastWins (ofGroups groups) (groups.flatMap Group.stories)) ∧
    (∀ first second, ofGroups (first ++ second) = (ofGroups first).overlay (ofGroups second)) ∧
    (∀ stories, LastWins (ofStories stories) stories) ∧
    ∀ first second, ofStories (first ++ second) = (ofStories first).overlay (ofStories second) := by
  refine ⟨?_, ?_, lastWins_ofStories, ofStories_append⟩
  · intro groups
    rw [ofGroups_eq]
    exact lastWins_ofStories _
  · intro first second
    rw [ofGroups_eq, ofGroups_eq, ofGroups_eq, List.flatMap_append, ofStories_append]

/-! ## Any order -/

/-- Stories that are listed under one display path have one id. -/
def OneIdPerPath (stories : List Metadata) : Prop :=
  ∀ s ∈ stories, ∀ t ∈ stories, ∀ key, s.ListedUnder key → t.ListedUnder key → s.id = t.id

theorem OneIdPerPath.agree (h : OneIdPerPath stories) :
    ∀ p ∈ entriesOf stories, ∀ q ∈ entriesOf stories, p.1 = q.1 → p.2 = q.2 := by
  intro p hp q hq hkey
  obtain ⟨s, hs, rfl⟩ := List.mem_map.mp hp
  obtain ⟨t, ht, rfl⟩ := List.mem_map.mp hq
  obtain ⟨hs, hsintro⟩ := List.mem_filter.mp hs
  obtain ⟨ht, htintro⟩ := List.mem_filter.mp ht
  have hid : s.id = t.id :=
    h s hs t ht _ ⟨by simpa using hsintro, rfl⟩ ⟨by simpa using htintro, hkey.symm⟩
  exact congrArg storyUrl hid

theorem ofStories_eq_of_perm {others : List Metadata} (hperm : stories.Perm others)
    (h : OneIdPerPath stories) : ofStories stories = ofStories others := by
  have hentries : (entriesOf stories).Perm (entriesOf others) := (hperm.filter _).map _
  rw [ofStories_eq_ofList, ofStories_eq_ofList, KeyMap.ofList_eq_of_perm hentries h.agree]

/-- A story can be made the last one, and is then the one under its display path. -/
theorem exists_perm_get? {s : Metadata} (hs : s ∈ stories) (hlisted : s.ListedUnder key) :
    ∃ others, others.Perm stories ∧
      (ofStories others).entries.get? key = some (storyUrl s.id) := by
  obtain ⟨before, after, rfl⟩ := List.append_of_mem hs
  refine ⟨before ++ after ++ [s], ?_, ?_⟩
  · exact (List.perm_append_singleton s _).trans List.perm_middle.symm
  · apply ((lastWins_ofStories _).answer_iff key _).mpr
    exact ⟨before ++ after, s, [], rfl, hlisted, by simp, rfl⟩

/-- Extracted stories have the manifest of the scanned groups, in whatever order they come, exactly
if no two of them are listed under one display path with different ids. -/
theorem ofStories_eq_ofGroups_iff (groups : List Group) :
    (∀ stories, stories.Perm (groups.flatMap Group.stories) →
      ofStories stories = ofGroups groups) ↔ OneIdPerPath (groups.flatMap Group.stories) := by
  rw [ofGroups_eq]
  constructor
  · intro h s hs t ht key hskey htkey
    obtain ⟨others, hothers, hfirst⟩ := exists_perm_get? hs hskey
    obtain ⟨others', hothers', hsecond⟩ := exists_perm_get? ht htkey
    rw [h others hothers, ← h others' hothers', hsecond] at hfirst
    exact Story.storyUrl_injective (Option.some.inj hfirst).symm
  · intro h stories hperm
    exact (ofStories_eq_of_perm hperm.symm h).symm

-- A group of the examples folder and one outside it can meet in a display path.
example : ofGroups [⟨"Example/A", ["x"]⟩, ⟨"A", ["x"]⟩] ≠
    ofGroups [⟨"A", ["x"]⟩, ⟨"Example/A", ["x"]⟩] := by
  decide +kernel

end Manifest

end Docset
