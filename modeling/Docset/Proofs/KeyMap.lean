import Docset.KeyMap
import Mathlib.Data.Finset.Card

/-!
# What a map holds

A map is known by its look-ups: two maps that answer alike are equal, however they were
filled, and the size of a map is the number of keys that it answers to. Of the pairs that a
map was filled with, the last one under a key is the answer. So filling a map with two lists
one after the other lays the map of the second over that of the first, and the order of the
pairs does not matter as long as no two of them give a key different values.
-/
namespace Docset.KeyMap

variable {α : Type} {m n : KeyMap α} {key : String} {value : α} {pairs : List (String × α)}

/-! ## Look-ups -/

theorem nodup_keys (m : KeyMap α) : (m.pairs.map (·.1)).Nodup :=
  List.pairwise_map.mpr (m.ascending.imp String.ne_of_lt)

theorem mem_pairs_iff : (key, value) ∈ m.pairs ↔ m.get? key = some value := by
  rw [get?, Option.map_eq_some_iff]
  constructor
  · intro hmem
    have hfound : (m.pairs.find? (·.1 = key)).isSome := List.find?_isSome.mpr ⟨_, hmem, by simp⟩
    obtain ⟨p, hp⟩ := Option.isSome_iff_exists.mp hfound
    have hkey : p.1 = key := by simpa using List.find?_some hp
    have hsame : p = (key, value) :=
      List.inj_on_of_nodup_map m.nodup_keys (List.mem_of_find?_eq_some hp) hmem hkey
    exact ⟨p, hp, by rw [hsame]⟩
  · rintro ⟨p, hp, rfl⟩
    have hkey : p.1 = key := by simpa using List.find?_some hp
    exact hkey ▸ List.mem_of_find?_eq_some hp

theorem mem_keys_iff : key ∈ m.pairs.map (·.1) ↔ (m.get? key).isSome := by
  rw [Option.isSome_iff_exists]
  constructor
  · intro h
    obtain ⟨p, hp, rfl⟩ := List.mem_map.mp h
    exact ⟨p.2, mem_pairs_iff.mp hp⟩
  · rintro ⟨value, h⟩
    exact List.mem_map.mpr ⟨(key, value), mem_pairs_iff.mpr h, rfl⟩

theorem ext_get? (h : ∀ key, m.get? key = n.get? key) : m = n := by
  apply ext
  have hsame : ∀ p, p ∈ m.pairs ↔ p ∈ n.pairs := by
    intro p
    rw [← Prod.eta p, mem_pairs_iff, mem_pairs_iff, h]
  have hperm : m.pairs.Perm n.pairs :=
    (List.perm_ext_iff_of_nodup m.nodup_keys.of_map n.nodup_keys.of_map).mpr hsame
  refine hperm.eq_of_pairwise ?_ m.ascending n.ascending
  intro p q _ _ hpq hqp
  exact absurd (String.lt_trans hpq hqp) (String.lt_irrefl _)

theorem size_eq_card {keys : List String} (h : ∀ key, (m.get? key).isSome ↔ key ∈ keys) :
    m.size = keys.toFinset.card := by
  have hkeys : (m.pairs.map (·.1)).toFinset = keys.toFinset := by
    ext key
    rw [List.mem_toFinset, List.mem_toFinset, mem_keys_iff, h]
  rw [← hkeys, List.toFinset_card_of_nodup m.nodup_keys, List.length_map, size]

/-! ## Filling a map -/

theorem get?_insertAll (m : KeyMap α) (pairs : List (String × α)) (key : String) :
    (m.insertAll pairs).get? key =
      ((pairs.reverse.find? (·.1 = key)).map (·.2)).or (m.get? key) := by
  induction pairs generalizing m with
  | nil => rfl
  | cons p pairs ih =>
      have hstep : m.insertAll (p :: pairs) = (m.insert p.1 p.2).insertAll pairs := rfl
      rw [hstep, ih, get?_insert, List.reverse_cons, List.find?_append]
      cases pairs.reverse.find? (·.1 = key) with
      | some q => rfl
      | none => by_cases hkey : p.1 = key <;> simp [hkey]

theorem get?_ofList (pairs : List (String × α)) (key : String) :
    (ofList pairs).get? key = (pairs.reverse.find? (·.1 = key)).map (·.2) := by
  rw [ofList, get?_insertAll, get?_empty, Option.or_none]

theorem get?_insertAll_eq_or (m : KeyMap α) (pairs : List (String × α)) (key : String) :
    (m.insertAll pairs).get? key = ((ofList pairs).get? key).or (m.get? key) := by
  rw [get?_insertAll, get?_ofList]

theorem isSome_get?_ofList : ((ofList pairs).get? key).isSome ↔ key ∈ pairs.map (·.1) := by
  rw [get?_ofList, Option.isSome_map, List.find?_isSome]
  simp

theorem mem_of_get?_ofList (h : (ofList pairs).get? key = some value) : (key, value) ∈ pairs := by
  rw [get?_ofList] at h
  obtain ⟨p, hp, rfl⟩ := Option.map_eq_some_iff.mp h
  have hkey : p.1 = key := by simpa using List.find?_some hp
  exact hkey ▸ List.mem_reverse.mp (List.mem_of_find?_eq_some hp)

/-- The answer to a key is the value that was put under it last. -/
theorem get?_ofList_eq_some_iff :
    (ofList pairs).get? key = some value ↔
      ∃ before after, pairs = before ++ (key, value) :: after ∧ key ∉ after.map (·.1) := by
  rw [get?_ofList, Option.map_eq_some_iff]
  constructor
  · rintro ⟨⟨found, v⟩, hfind, rfl⟩
    obtain ⟨hkey, after, before, hpairs, hafter⟩ := List.find?_eq_some_iff_append.mp hfind
    have hsame : found = key := by simpa using hkey
    refine ⟨before.reverse, after.reverse, ?_, ?_⟩
    · rw [← List.reverse_reverse pairs, hpairs, hsame]
      simp
    · intro hmem
      obtain ⟨p, hp, hpkey⟩ := List.mem_map.mp hmem
      simpa [hpkey] using hafter p (List.mem_reverse.mp hp)
  · rintro ⟨before, after, rfl, hafter⟩
    refine ⟨(key, value), List.find?_eq_some_iff_append.mpr ⟨by simp, after.reverse,
      before.reverse, by simp, fun p hp => ?_⟩, rfl⟩
    have hne : p.1 ≠ key := by
      intro heq
      exact hafter (List.mem_map.mpr ⟨p, List.mem_reverse.mp hp, heq⟩)
    simpa using hne

theorem get?_ofList_of_agree (hagree : ∀ p ∈ pairs, ∀ q ∈ pairs, p.1 = q.1 → p.2 = q.2) :
    (ofList pairs).get? key = some value ↔ (key, value) ∈ pairs := by
  refine ⟨mem_of_get?_ofList, fun hmem => ?_⟩
  have hsome : ((ofList pairs).get? key).isSome :=
    isSome_get?_ofList.mpr (List.mem_map.mpr ⟨_, hmem, rfl⟩)
  obtain ⟨found, hfound⟩ := Option.isSome_iff_exists.mp hsome
  have hsame : found = value := hagree _ (mem_of_get?_ofList hfound) _ hmem rfl
  rw [hfound, hsame]

theorem ofList_eq_of_perm {others : List (String × α)} (hperm : pairs.Perm others)
    (hagree : ∀ p ∈ pairs, ∀ q ∈ pairs, p.1 = q.1 → p.2 = q.2) : ofList pairs = ofList others := by
  have hothers : ∀ p ∈ others, ∀ q ∈ others, p.1 = q.1 → p.2 = q.2 := by
    intro p hp q hq
    exact hagree p (hperm.mem_iff.mpr hp) q (hperm.mem_iff.mpr hq)
  apply ext_get?
  intro key
  apply Option.ext
  intro value
  rw [get?_ofList_of_agree hagree, get?_ofList_of_agree hothers, hperm.mem_iff]

theorem insertPair_of_last {key : String} (value : α) {pairs : List (String × α)}
    (h : ∀ p ∈ pairs, p.1 < key) : insertPair key value pairs = pairs ++ [(key, value)] := by
  induction pairs with
  | nil => rfl
  | cons p pairs ih =>
      obtain ⟨hp, hrest⟩ := List.forall_mem_cons.mp h
      have hlt : ¬ key < p.1 := fun hkey => String.lt_irrefl _ (String.lt_trans hkey hp)
      have hne : key ≠ p.1 := fun hkey => String.lt_irrefl _ (hkey ▸ hp)
      rw [insertPair, if_neg hlt, if_neg hne, ih hrest, List.cons_append]

theorem pairs_insertAll {m : KeyMap α} {pairs : List (String × α)}
    (h : (m.pairs ++ pairs).Pairwise (·.1 < ·.1)) :
    (m.insertAll pairs).pairs = m.pairs ++ pairs := by
  induction pairs generalizing m with
  | nil => exact (List.append_nil _).symm
  | cons p pairs ih =>
      have hlast : ∀ q ∈ m.pairs, q.1 < p.1 := by
        intro q hq
        exact (List.pairwise_append.mp h).2.2 q hq p List.mem_cons_self
      have hpairs : (m.insert p.1 p.2).pairs = m.pairs ++ [p] := insertPair_of_last p.2 hlast
      have hstep : m.insertAll (p :: pairs) = (m.insert p.1 p.2).insertAll pairs := rfl
      rw [hstep, ih (by simpa [hpairs] using h), hpairs, List.append_assoc, List.singleton_append]

theorem ofList_pairs (m : KeyMap α) : ofList m.pairs = m :=
  ext (pairs_insertAll (m := empty) m.ascending)

/-! ## One map over another -/

def overlay (m n : KeyMap α) : KeyMap α := m.insertAll n.pairs

@[simp] theorem get?_overlay (m n : KeyMap α) (key : String) :
    (m.overlay n).get? key = (n.get? key).or (m.get? key) := by
  rw [overlay, get?_insertAll_eq_or, ofList_pairs]

theorem ofList_append (first second : List (String × α)) :
    ofList (first ++ second) = (ofList first).overlay (ofList second) := by
  have hsteps : ofList (first ++ second) = (ofList first).insertAll second := List.foldl_append
  apply ext_get?
  intro key
  rw [hsteps, get?_insertAll_eq_or, get?_overlay]

end Docset.KeyMap
