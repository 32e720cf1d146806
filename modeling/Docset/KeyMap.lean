/-!
# Maps with text keys

A map is a list of pairs whose keys ascend, so that equal maps are equal lists and
the order in which a map is written is part of its value. Keys are ordered by code
points, which is also the order of their UTF-8 bytes.
-/
namespace Docset

/-- Puts a value under a key of an ascending list, in place of the one that is there. -/
def insertPair {α : Type} (key : String) (value : α) : List (String × α) → List (String × α)
  | [] => [(key, value)]
  | p :: rest =>
      if key < p.1 then (key, value) :: p :: rest
      else if key = p.1 then (key, value) :: rest
      else p :: insertPair key value rest

theorem mem_insertPair {α : Type} {key : String} {value : α} {pairs : List (String × α)}
    {p : String × α} (h : p ∈ insertPair key value pairs) : p = (key, value) ∨ p ∈ pairs := by
  induction pairs with
  | nil => simpa [insertPair] using h
  | cons q rest ih =>
      rw [insertPair] at h
      split at h
      · simpa using h
      · split at h
        · rcases List.mem_cons.1 h with h | h
          · exact .inl h
          · exact .inr (List.mem_cons_of_mem _ h)
        · rcases List.mem_cons.1 h with h | h
          · exact .inr (h ▸ List.mem_cons_self)
          · exact (ih h).imp_right (List.mem_cons_of_mem _)

theorem pairwise_insertPair {α : Type} (key : String) (value : α) {pairs : List (String × α)}
    (h : pairs.Pairwise (·.1 < ·.1)) : (insertPair key value pairs).Pairwise (·.1 < ·.1) := by
  induction pairs with
  | nil => simp [insertPair]
  | cons q rest ih =>
      obtain ⟨hq, hrest⟩ := List.pairwise_cons.1 h
      rw [insertPair]
      split
      · rename_i hlt
        refine List.pairwise_cons.2 ⟨fun p hp => ?_, h⟩
        rcases List.mem_cons.1 hp with rfl | hp
        · exact hlt
        · exact String.lt_trans hlt (hq p hp)
      · split
        · rename_i _ heq
          exact List.pairwise_cons.2 ⟨fun p hp => heq ▸ hq p hp, hrest⟩
        · rename_i hlt hne
          refine List.pairwise_cons.2 ⟨fun p hp => ?_, ih hrest⟩
          rcases mem_insertPair hp with rfl | hp
          · exact String.not_le.1 fun hle =>
              hne (String.le_antisymm hle (String.not_lt.1 hlt))
          · exact hq p hp

theorem find?_insertPair {α : Type} (key wanted : String) (value : α)
    (pairs : List (String × α)) :
    (insertPair key value pairs).find? (·.1 = wanted) =
      if key = wanted then some (key, value) else pairs.find? (·.1 = wanted) := by
  induction pairs with
  | nil => by_cases h : key = wanted <;> simp [insertPair, h]
  | cons q rest ih =>
      rw [insertPair]
      by_cases h : key = wanted
      · subst h
        split
        · simp
        · split
          · simp
          · rename_i hne
            rw [List.find?_cons_of_neg (by simpa using fun h => hne h.symm), ih, if_pos rfl,
              if_pos rfl]
      · split
        · simp [h]
        · split
          · rename_i heq
            simp [h, ← heq]
          · simp only [List.find?_cons, ih, if_neg h]

/-- A finite map from texts, listed by ascending keys. -/
structure KeyMap (α : Type) where
  pairs : List (String × α)
  ascending : pairs.Pairwise (·.1 < ·.1)
  deriving DecidableEq, Repr

namespace KeyMap

variable {α : Type}

def empty : KeyMap α := ⟨[], .nil⟩

instance : Inhabited (KeyMap α) := ⟨empty⟩

/-- Puts a value under a key, in place of an earlier one. -/
def insert (m : KeyMap α) (key : String) (value : α) : KeyMap α :=
  ⟨insertPair key value m.pairs, pairwise_insertPair key value m.ascending⟩

/-- Puts in pair after pair, so that of equal keys the last one counts. -/
def insertAll (m : KeyMap α) (pairs : List (String × α)) : KeyMap α :=
  pairs.foldl (fun m p => m.insert p.1 p.2) m

def ofList (pairs : List (String × α)) : KeyMap α := empty.insertAll pairs

def get? (m : KeyMap α) (key : String) : Option α := (m.pairs.find? (·.1 = key)).map (·.2)

/-- The values by ascending keys. -/
def values (m : KeyMap α) : List α := m.pairs.map (·.2)

def size (m : KeyMap α) : Nat := m.pairs.length

def isEmpty (m : KeyMap α) : Bool := m.pairs.isEmpty

theorem ext {m n : KeyMap α} (h : m.pairs = n.pairs) : m = n := by
  cases m; cases n; cases h; rfl

@[simp] theorem get?_empty (key : String) : (empty : KeyMap α).get? key = none := rfl

@[simp] theorem get?_insert (m : KeyMap α) (key wanted : String) (value : α) :
    (m.insert key value).get? wanted = if key = wanted then some value else m.get? wanted := by
  unfold get? insert
  rw [find?_insertPair]
  split <;> rfl

end KeyMap

end Docset
