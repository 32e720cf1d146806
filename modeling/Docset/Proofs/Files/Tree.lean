import Docset.Files.System
import Mathlib.Data.List.Nodup

/-!
# Trees that grow

A tree is well formed if every entry stands in a folder under a name of its own. What a
build does to one place is said once: it makes a folder or a file where nothing is, or
changes what a file holds. A tree grows by such changes. Everything that was there stays
what it was, the contents of files apart; what lies outside the places that were touched
stays exactly as it was, and new entries come after all the old ones.
-/
namespace Docset

def IsName (name : String) : Prop :=
  (name ≠ "" ∧ name ≠ "." ∧ name ≠ "..") ∧ '/' ∉ name.toList ∧ name.utf8ByteSize ≤ 255

instance (name : String) : Decidable (IsName name) :=
  inferInstanceAs (Decidable (_ ∧ _ ∧ _))

/-- Two entries that differ at most in what a file holds. -/
inductive Entry.Alike : Entry → Entry → Prop
  | refl (e : Entry) : Alike e e
  | file {bytes bytes' : ByteArray} {runnable runnable' : Bool} :
      Alike (.file bytes runnable) (.file bytes' runnable')

theorem Entry.Alike.trans {a b c : Entry} (hab : Alike a b) (hbc : Alike b c) : Alike a c := by
  cases hab with
  | refl => exact hbc
  | file =>
      cases hbc with
      | refl => exact .file
      | file => exact .file

theorem Entry.Alike.exists_file {bytes : ByteArray} {runnable : Bool} {e : Entry}
    (h : Alike (.file bytes runnable) e) : ∃ bytes' runnable', e = .file bytes' runnable' := by
  cases h with
  | refl => exact ⟨_, _, rfl⟩
  | file => exact ⟨_, _, rfl⟩

namespace FileSystem

variable {fs mid after : FileSystem} {l place : Location} {e : Entry}

/-- Whether a place is in a folder, under a name. -/
def Placed (fs : FileSystem) : Location → Prop
  | [] => False
  | name :: place => IsName name ∧ fs.get? place = some .folder

instance (fs : FileSystem) (l : Location) : Decidable (fs.Placed l) :=
  match l with
  | [] => inferInstanceAs (Decidable False)
  | _ :: _ => inferInstanceAs (Decidable (_ ∧ _))

/-- Every entry stands in a folder, under a name that no other entry of that folder has. -/
structure WellFormed (fs : FileSystem) : Prop where
  nodup : (fs.entries.map (·.1)).Nodup
  placed : ∀ p ∈ fs.entries, fs.Placed p.1

theorem Placed.ne_nil (h : fs.Placed l) : l ≠ [] := by
  rintro rfl
  exact h

theorem WellFormed.ne_nil (hfs : fs.WellFormed) {p : Location × Entry} (hp : p ∈ fs.entries) :
    p.1 ≠ [] :=
  (hfs.placed p hp).ne_nil

theorem get?_of_ne_nil (hl : l ≠ []) :
    fs.get? l = (fs.entries.find? (·.1 = l)).map (·.2) := by
  cases l with
  | nil => exact absurd rfl hl
  | cons name place => rfl

theorem mem_of_get? (h : fs.get? l = some e) (hl : l ≠ []) : (l, e) ∈ fs.entries := by
  rw [get?_of_ne_nil hl, Option.map_eq_some_iff] at h
  obtain ⟨⟨k, e'⟩, hfind, rfl⟩ := h
  have hk : k = l := by simpa using List.find?_some hfind
  exact hk ▸ List.mem_of_find?_eq_some hfind

theorem WellFormed.get?_of_mem (hfs : fs.WellFormed) (h : (l, e) ∈ fs.entries) :
    fs.get? l = some e := by
  rw [get?_of_ne_nil (hfs.ne_nil h), Option.map_eq_some_iff]
  cases hfind : fs.entries.find? (·.1 = l) with
  | none =>
      have := List.find?_eq_none.mp hfind _ h
      simp at this
  | some p =>
      have hp : p.1 = l := by simpa using List.find?_some hfind
      have := List.inj_on_of_nodup_map hfs.nodup (List.mem_of_find?_eq_some hfind) h hp
      exact ⟨p, rfl, by rw [this]⟩

theorem get?_isSome_iff_mem (hl : l ≠ []) :
    (fs.get? l).isSome ↔ l ∈ fs.entries.map (·.1) := by
  rw [get?_of_ne_nil hl, Option.isSome_map, List.find?_isSome]
  simp

theorem WellFormed.placed_of_get? (hfs : fs.WellFormed) (hl : l ≠ [])
    (h : fs.get? l = some e) : fs.Placed l :=
  hfs.placed _ (mem_of_get? h hl)

theorem WellFormed.get?_append (hfs : fs.WellFormed) (names : List String)
    (hnames : names ≠ []) (h : (fs.get? (names ++ place)).isSome) :
    fs.get? place = some .folder := by
  induction names with
  | nil => exact absurd rfl hnames
  | cons name names ih =>
      obtain ⟨e, he⟩ := Option.isSome_iff_exists.mp h
      have hplaced : fs.get? (names ++ place) = some .folder :=
        (hfs.placed_of_get? (l := name :: (names ++ place)) (by simp) he).2
      cases names with
      | nil => exact hplaced
      | cons inner names => exact ih (by simp) (by rw [hplaced]; rfl)

theorem WellFormed.exists_of_append (hfs : fs.WellFormed) {names : List String}
    (h : fs.get? (names ++ place) = some e) : ∃ e', fs.get? place = some e' := by
  cases names with
  | nil => exact ⟨e, h⟩
  | cons name names =>
      exact ⟨_, hfs.get?_append (name :: names) (by simp) (by rw [h]; rfl)⟩

theorem WellFormed.get?_eq_none_of_suffix (hfs : fs.WellFormed) (h : fs.get? place = none)
    (hl : place <:+ l) : fs.get? l = none := by
  obtain ⟨names, rfl⟩ := hl
  cases names with
  | nil => exact h
  | cons name names =>
      cases hget : fs.get? ((name :: names) ++ place) with
      | none => rfl
      | some e =>
          have hfolder := hfs.get?_append (name :: names) (by simp) (by rw [hget]; rfl)
          rw [h] at hfolder
          cases hfolder

def names (fs : FileSystem) (place : Location) : List String :=
  (fs.entries.map (·.1)).filterMap fun l =>
    match l with
    | name :: around => if around = place then some name else none
    | [] => none

theorem mem_names_iff {name : String} :
    name ∈ fs.names place ↔ (fs.get? (name :: place)).isSome := by
  rw [get?_isSome_iff_mem (by simp)]
  unfold names
  rw [List.mem_filterMap]
  constructor
  · rintro ⟨l, hl, hname⟩
    cases l with
    | nil => cases hname
    | cons inner around =>
        simp only [Option.ite_none_right_eq_some, Option.some.injEq] at hname
        obtain ⟨rfl, rfl⟩ := hname
        exact hl
  · intro h
    exact ⟨_, h, by simp⟩

/-- What a folder holds is said by its names and by what stands at them. -/
theorem WellFormed.children_eq (hfs : fs.WellFormed) (place : Location) :
    fs.children place =
      (fs.names place).filterMap fun name => (fs.get? (name :: place)).map (name, ·) := by
  unfold children names
  rw [List.filterMap_filterMap, List.filterMap_map]
  refine List.filterMap_congr ?_
  rintro ⟨l, e⟩ hp
  have hget := hfs.get?_of_mem hp
  cases l with
  | nil => rfl
  | cons name around =>
      by_cases haround : around = place
      · subst haround
        simp [hget]
      · simp [haround]

theorem WellFormed.mem_children_iff (hfs : fs.WellFormed) {name : String} :
    (name, e) ∈ fs.children place ↔ fs.get? (name :: place) = some e := by
  rw [hfs.children_eq, List.mem_filterMap]
  constructor
  · rintro ⟨name', -, h⟩
    obtain ⟨e', he', heq⟩ := Option.map_eq_some_iff.mp h
    cases heq
    exact he'
  · intro h
    exact ⟨name, mem_names_iff.mpr (by simp [h]), by simp [h]⟩

theorem WellFormed.nodup_names (hfs : fs.WellFormed) (place : Location) :
    (fs.names place).Nodup := by
  refine hfs.nodup.filterMap fun l k name hl hk => ?_
  cases l with
  | nil => cases hl
  | cons inner around =>
      cases k with
      | nil => cases hk
      | cons inner' around' =>
          simp only [Option.mem_def, Option.ite_none_right_eq_some, Option.some.injEq] at hl hk
          obtain ⟨rfl, rfl⟩ := hl
          obtain ⟨rfl, rfl⟩ := hk
          rfl

theorem WellFormed.nodup_children (hfs : fs.WellFormed) (place : Location) :
    ((fs.children place).map (·.1)).Nodup := by
  have hnames : (fs.children place).map (·.1) = fs.names place := by
    rw [hfs.children_eq, List.map_filterMap]
    calc _ = (fs.names place).filterMap some := by
            refine List.filterMap_congr fun name hname => ?_
            obtain ⟨e, he⟩ := Option.isSome_iff_exists.mp (mem_names_iff.mp hname)
            simp [he]
      _ = _ := List.filterMap_some ..
  rw [hnames]
  exact hfs.nodup_names place

/-- A well-formed tree is known by its places, in order, and by what stands at them. -/
theorem WellFormed.ext {fs' : FileSystem} (hfs : fs.WellFormed) (hfs' : fs'.WellFormed)
    (hhere : fs.here = fs'.here) (hkeys : fs.entries.map (·.1) = fs'.entries.map (·.1))
    (hget : ∀ l, fs.get? l = fs'.get? l) : fs = fs' := by
  have hentries : ∀ {fs : FileSystem}, fs.WellFormed → fs.entries =
      (fs.entries.map (·.1)).filterMap fun l => (fs.get? l).map (l, ·) := by
    intro fs hfs
    rw [List.filterMap_map]
    calc fs.entries = fs.entries.filterMap some := (List.filterMap_some ..).symm
      _ = _ := List.filterMap_congr fun p hp => by simp [hfs.get?_of_mem hp]
  have heq : fs.entries = fs'.entries := by
    rw [hentries hfs, hentries hfs', hkeys]
    simp only [hget]
  cases fs
  cases fs'
  exact congr (congrArg _ heq) hhere

/-- A place that can be taken. -/
def Free (fs : FileSystem) (l : Location) : Prop := fs.get? l = none ∧ fs.Placed l

/-- What may be put at a place. -/
inductive Touch (fs : FileSystem) : Location → Entry → Prop
  | folder {l : Location} : fs.Free l → Touch fs l .folder
  | file {l : Location} {bytes : ByteArray} {runnable : Bool} :
      fs.Free l → Touch fs l (.file bytes runnable)
  | refill {l : Location} {old bytes : ByteArray} {was runnable : Bool} :
      fs.get? l = some (.file old was) → Touch fs l (.file bytes runnable)

theorem Touch.ne_nil (h : fs.Touch l e) : l ≠ [] := by
  cases h with
  | folder hfree => exact hfree.2.ne_nil
  | file hfree => exact hfree.2.ne_nil
  | refill hget =>
      rintro rfl
      cases hget

/-- A place is taken anew, or holds a file and goes on to hold one. -/
theorem Touch.cases (h : fs.Touch l e) :
    fs.Free l ∨ ∃ old, fs.get? l = some old ∧ Entry.Alike old e := by
  cases h with
  | folder hfree => exact .inl hfree
  | file hfree => exact .inl hfree
  | refill hget => exact .inr ⟨_, hget, .file⟩

/-- Grows by changes to places of one kind. -/
inductive Grows (P : Location → Prop) : FileSystem → FileSystem → Prop
  | refl (fs : FileSystem) : Grows P fs fs
  | step {fs mid : FileSystem} {l : Location} {e : Entry} :
      Grows P fs mid → mid.Touch l e → P l → Grows P fs (mid.put l e)

/-- Everything that is there stays there, and stays what it is, the contents of files apart. -/
structure Keeps (fs after : FileSystem) : Prop where
  here : after.here = fs.here
  get? : ∀ {l e}, fs.get? l = some e → ∃ e', after.get? l = some e' ∧ Entry.Alike e e'

theorem Keeps.refl (fs : FileSystem) : Keeps fs fs := ⟨rfl, fun h => ⟨_, h, .refl _⟩⟩

theorem Keeps.trans (h : Keeps fs mid) (h' : Keeps mid after) : Keeps fs after where
  here := h'.here.trans h.here
  get? hget := by
    obtain ⟨e₁, he₁, halike₁⟩ := h.get? hget
    obtain ⟨e₂, he₂, halike₂⟩ := h'.get? he₁
    exact ⟨e₂, he₂, halike₁.trans halike₂⟩

theorem Keeps.folder (h : Keeps fs after) (hget : fs.get? l = some .folder) :
    after.get? l = some .folder := by
  obtain ⟨e, he, halike⟩ := h.get? hget
  cases halike
  exact he

theorem Keeps.get?_eq_none (h : Keeps fs after) (hget : after.get? l = none) :
    fs.get? l = none := by
  cases hold : fs.get? l with
  | none => rfl
  | some e =>
      obtain ⟨e', he', -⟩ := h.get? hold
      rw [hget] at he'
      cases he'

theorem Touch.keeps (h : fs.Touch l e) : Keeps fs (fs.put l e) where
  here := rfl
  get? {k old} hget := by
    rw [get?_put fs h.ne_nil]
    split
    · rename_i heq
      subst heq
      rcases h.cases with ⟨hnone, -⟩ | ⟨old', hold, halike⟩
      · rw [hnone] at hget
        cases hget
      · rw [hold] at hget
        cases hget
        exact ⟨e, rfl, halike⟩
    · exact ⟨old, hget, .refl _⟩

theorem keys_put (fs : FileSystem) (hl : l ≠ []) (e : Entry) :
    (fs.put l e).entries.map (·.1) =
      fs.entries.map (·.1) ++ if (fs.get? l).isSome then [] else [l] := by
  unfold put
  by_cases hmem : l ∈ fs.entries.map (·.1)
  · have hany : fs.entries.any (·.1 = l) = true := by simpa using hmem
    rw [if_pos ((get?_isSome_iff_mem hl).mpr hmem), if_pos hany, List.append_nil, List.map_map]
    refine List.map_congr_left fun p _ => ?_
    by_cases hp : p.1 = l
    · simp [hp]
    · simp [hp]
  · have hany : ¬ fs.entries.any (·.1 = l) = true := by simpa using hmem
    rw [if_neg (hmem ∘ (get?_isSome_iff_mem hl).mp), if_neg hany, List.map_append]
    rfl

theorem Placed.keeps (hl : fs.Placed l) (h : Keeps fs after) : after.Placed l := by
  cases l with
  | nil => exact hl
  | cons name place => exact ⟨hl.1, h.folder hl.2⟩

theorem Touch.wellFormed (h : fs.Touch l e) (hfs : fs.WellFormed) : (fs.put l e).WellFormed where
  nodup := by
    rw [keys_put fs h.ne_nil]
    split
    · rw [List.append_nil]
      exact hfs.nodup
    · rename_i hnone
      rw [get?_isSome_iff_mem h.ne_nil] at hnone
      exact List.nodup_append.mpr ⟨hfs.nodup, by simp, by
        rintro k hk l' hl' rfl
        exact hnone (List.mem_singleton.mp hl' ▸ hk)⟩
  placed := by
    intro p hp
    have hkey : p.1 ∈ (fs.put l e).entries.map (·.1) := List.mem_map_of_mem hp
    rw [keys_put fs h.ne_nil, List.mem_append] at hkey
    refine Placed.keeps ?_ h.keeps
    rcases hkey with hold | hnew
    · obtain ⟨q, hq, heq⟩ := List.mem_map.mp hold
      exact heq ▸ hfs.placed q hq
    · split at hnew
      · cases hnew
      · rename_i hnone
        rw [List.mem_singleton.mp hnew]
        rcases h.cases with ⟨-, hplaced⟩ | ⟨old, hold, -⟩
        · exact hplaced
        · simp [hold] at hnone

namespace Grows

variable {P Q : Location → Prop}

theorem single (h : fs.Touch l e) (hl : P l) : Grows P fs (fs.put l e) := .step (.refl fs) h hl

theorem trans (h : Grows P fs mid) (h' : Grows P mid after) : Grows P fs after := by
  induction h' with
  | refl => exact h
  | step _ htouch hl ih => exact .step ih htouch hl

theorem mono (h : Grows P fs after) (hPQ : ∀ l, P l → Q l) : Grows Q fs after := by
  induction h with
  | refl => exact .refl _
  | step _ htouch hl ih => exact .step ih htouch (hPQ _ hl)

theorem keeps (h : Grows P fs after) : Keeps fs after := by
  induction h with
  | refl => exact .refl _
  | step _ htouch _ ih => exact ih.trans htouch.keeps

theorem wellFormed (h : Grows P fs after) (hfs : fs.WellFormed) : after.WellFormed := by
  induction h with
  | refl => exact hfs
  | step _ htouch _ ih => exact htouch.wellFormed ih

theorem get?_eq (h : Grows P fs after) (hl : ¬ P l) : after.get? l = fs.get? l := by
  induction h with
  | refl => rfl
  | @step mid k e hgrows htouch hk ih =>
      have hne : k ≠ l := fun heq => hl (heq ▸ hk)
      rw [get?_put _ htouch.ne_nil, if_neg hne]
      exact ih

theorem keys (h : Grows P fs after) :
    ∃ new, after.entries.map (·.1) = fs.entries.map (·.1) ++ new ∧
      ∀ l ∈ new, P l ∧ fs.get? l = none := by
  induction h with
  | refl => exact ⟨[], by simp, by simp⟩
  | @step mid l e hgrows htouch hl ih =>
      obtain ⟨new, hkeys, hnew⟩ := ih
      rw [keys_put _ htouch.ne_nil, hkeys, List.append_assoc]
      refine ⟨_, rfl, fun k hk => ?_⟩
      rcases List.mem_append.mp hk with hk | hk
      · exact hnew k hk
      · split at hk
        · cases hk
        · rename_i hnone
          rw [List.mem_singleton.mp hk]
          exact ⟨hl, hgrows.keeps.get?_eq_none (by simpa using hnone)⟩

theorem keys_eq (h : Grows P fs after) (hP : ∀ l, P l → (fs.get? l).isSome) :
    after.entries.map (·.1) = fs.entries.map (·.1) := by
  obtain ⟨new, hkeys, hnew⟩ := h.keys
  have hnil : new = [] := List.eq_nil_iff_forall_not_mem.mpr fun l hl => by
    obtain ⟨hl, hnone⟩ := hnew l hl
    simpa [hnone] using hP l hl
  rw [hkeys, hnil, List.append_nil]

theorem names (h : Grows P fs after) (place : Location) :
    ∃ new, after.names place = fs.names place ++ new ∧
      ∀ name ∈ new, P (name :: place) ∧ fs.get? (name :: place) = none := by
  obtain ⟨new, hkeys, hnew⟩ := h.keys
  unfold FileSystem.names
  rw [hkeys, List.filterMap_append]
  refine ⟨_, rfl, fun name hname => ?_⟩
  obtain ⟨l, hl, heq⟩ := List.mem_filterMap.mp hname
  cases l with
  | nil => cases heq
  | cons inner around =>
      simp only [Option.ite_none_right_eq_some, Option.some.injEq] at heq
      obtain ⟨rfl, rfl⟩ := heq
      exact hnew _ hl

theorem children_eq (h : Grows P fs after) (hfs : fs.WellFormed)
    (hplace : ∀ name, ¬ P (name :: place)) : after.children place = fs.children place := by
  obtain ⟨new, hnames, hnew⟩ := h.names place
  have hnil : new = [] := List.eq_nil_iff_forall_not_mem.mpr fun name hname =>
    hplace name (hnew name hname).1
  rw [(h.wellFormed hfs).children_eq, hfs.children_eq, hnames, hnil, List.append_nil]
  exact List.filterMap_congr fun name _ => by rw [h.get?_eq (hplace name)]

end Grows

end FileSystem

end Docset
