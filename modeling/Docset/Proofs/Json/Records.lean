import Docset.Config.Record
import Docset.Proofs.Json.RoundTrip
import Mathlib.Data.List.Perm.Basic
import Mathlib.Data.List.Nodup

/-!
# Records and their fields

A record may leave fields out, give the others in any order and hold members that are no
field of it. `Gives` says which fields an object gives. Each field is then found where it
is given and counts as omitted where it is not, so what is read does not depend on the
order of the members or on those that are no field.

What is written of a value is faithful if the value is read back from it and printing it
leaves nothing out. That is passed on from values to lists of them and to values that may
be unset, so that of a record it has to be shown of the fields only.
-/
namespace Docset.Json

variable {members others extra : List (String × Json)} {names : List String} {v : Json}

/-! ## Members of an object -/

theorem memberSlot?_of_perm (h : members.Perm others) (names : List String) :
    memberSlot? members names = memberSlot? others names := by
  have hfilter := h.filter fun m => names.contains m.1
  unfold memberSlot?
  generalize members.filter (fun m => names.contains m.1) = found at hfilter ⊢
  generalize others.filter (fun m => names.contains m.1) = found' at hfilter ⊢
  match found with
  | [] => rw [hfilter.nil_eq]
  | [m] => rw [List.singleton_perm.mp hfilter]
  | m :: n :: found =>
      have hlength := hfilter.length_eq
      match found' with
      | [] => simp at hlength
      | [_] => simp at hlength
      | _ :: _ :: _ => rfl

theorem slots?_of_perm (h : members.Perm others) (fields : List (List String)) :
    (Json.object members).slots? fields = (Json.object others).slots? fields := by
  have hslots : memberSlot? members = memberSlot? others :=
    funext fun names => memberSlot?_of_perm h names
  rw [slots?, slots?, hslots]

theorem memberSlot?_append (h : ∀ m ∈ extra, m.1 ∉ names) :
    memberSlot? (members ++ extra) names = memberSlot? members names := by
  have hnone : extra.filter (fun m => names.contains m.1) = [] := by
    rw [List.filter_eq_nil_iff]
    intro m hm
    simpa using h m hm
  unfold memberSlot?
  rw [List.filter_append, hnone, List.append_nil]

theorem memberSlot?_of_mem {m : String × Json} (hm : m ∈ members) (hname : m.1 ∈ names) :
    memberSlot? members names = none ∨ memberSlot? members names = some (.given m.2) := by
  have hfound : m ∈ members.filter fun m => names.contains m.1 :=
    List.mem_filter.mpr ⟨hm, List.contains_iff_mem.mpr hname⟩
  unfold memberSlot?
  split
  · rename_i hnil
    rw [hnil] at hfound
    cases hfound
  · rename_i found hfilter
    rw [hfilter, List.mem_singleton] at hfound
    rw [hfound]
    exact .inr rfl
  · exact .inl rfl

theorem filter_keys_of_given (h : memberSlot? members names = some (.given v)) :
    ∃ name, (members.map Prod.fst).filter names.contains = [name] := by
  unfold memberSlot? at h
  split at h
  · cases h
  · rename_i m hfilter
    refine ⟨m.1, ?_⟩
    rw [List.filter_map]
    exact congrArg (List.map Prod.fst) hfilter
  · cases h

theorem Slot.eq_given_of_required {α : Type} {read? : Json → Option α} {slot : Slot} {a : α}
    (h : slot.required read? = some a) : ∃ v, slot = .given v ∧ read? v = some a := by
  cases slot with
  | given v => exact ⟨v, rfl, h⟩
  | omitted => cases h
  | cutOff => cases h

theorem eq_map_of_mapM {all : List (Option String × Json)}
    (h : all.mapM (fun m => m.1.map (·, m.2)) = some members) :
    all = members.map fun m => (some m.1, m.2) := by
  induction all generalizing members with
  | nil =>
      cases h
      rfl
  | cons m all ih =>
      rw [List.mapM_cons] at h
      obtain ⟨first, hfirst, h⟩ := Option.bind_eq_some_iff.mp h
      obtain ⟨rest, hrest, h⟩ := Option.bind_eq_some_iff.mp h
      obtain ⟨key, hkey, rfl⟩ := Option.map_eq_some_iff.mp hfirst
      cases h
      rw [ih hrest, List.map_cons, ← hkey]

/-- An object has the members that are written, unless one of their keys is not text. -/
theorem ofMembers_cases (all : List (Option String × Json)) :
    ofMembers all = .unreadable ∨
      ∃ members, ofMembers all = .object members ∧ all = members.map fun m => (some m.1, m.2) := by
  unfold ofMembers
  split
  · rename_i members hmembers
    exact .inr ⟨members, rfl, eq_map_of_mapM hmembers⟩
  · exact .inl rfl

/-! ## Fields that are given -/

/-- An object with these members gives the fields that have a value in `fields`; what it holds
besides them is no field. -/
def Gives (fields : List (String × Option Json)) (members : List (String × Json)) : Prop :=
  ∃ extra : List (String × Json), (∀ m ∈ extra, m.1 ∉ fields.map Prod.fst) ∧
    members.Perm (fields.filterMap (fun f => f.2.map (f.1, ·)) ++ extra)

def Slot.ofOption : Option Json → Slot
  | some v => .given v
  | none => .omitted

/-- Of fields with different names, one name belongs to one field. -/
theorem filter_fields {fields : List (String × Option Json)} (hnodup : (fields.map Prod.fst).Nodup)
    {f : String × Option Json} (hf : f ∈ fields) :
    (fields.filterMap fun g => g.2.map (g.1, ·)).filter (fun m => [f.1].contains m.1) =
      (f.2.map (f.1, ·)).toList := by
  induction fields with
  | nil => cases hf
  | cons g fields ih =>
      rw [List.map_cons, List.nodup_cons] at hnodup
      have hother : ∀ {name : String}, name ∉ fields.map Prod.fst →
          (fields.filterMap fun g => g.2.map (g.1, ·)).filter
            (fun m => [name].contains m.1) = [] := by
        intro name hname
        rw [List.filter_eq_nil_iff]
        intro m hm hmatch
        obtain ⟨h, hh, hmap⟩ := List.mem_filterMap.mp hm
        obtain ⟨v, -, rfl⟩ := Option.map_eq_some_iff.mp hmap
        have heq : h.1 = name := by simpa using hmatch
        exact hname (heq ▸ List.mem_map_of_mem hh)
      rcases List.mem_cons.mp hf with rfl | hf
      · cases hvalue : f.2 with
        | none => simpa [hvalue] using hother hnodup.1
        | some v => simpa [hvalue] using hother hnodup.1
      · have hne : g.1 ≠ f.1 := by
          intro heq
          exact hnodup.1 (heq ▸ List.mem_map_of_mem hf)
        have hrest := ih hnodup.2 hf
        cases hvalue : g.2 with
        | none => simpa [hvalue] using hrest
        | some v => simpa [hvalue, hne] using hrest

theorem memberSlot?_of_gives {fields : List (String × Option Json)} {members : List (String × Json)}
    (h : Gives fields members) (hnodup : (fields.map Prod.fst).Nodup)
    {f : String × Option Json} (hf : f ∈ fields) :
    memberSlot? members [f.1] = some (.ofOption f.2) := by
  obtain ⟨extra, hextra, hperm⟩ := h
  have hnone : ∀ m ∈ extra, m.1 ∉ [f.1] := by
    intro m hm hmem
    exact hextra m hm (List.mem_singleton.mp hmem ▸ List.mem_map_of_mem hf)
  rw [memberSlot?_of_perm hperm, memberSlot?_append hnone]
  unfold memberSlot?
  rw [filter_fields hnodup hf]
  cases f.2 with
  | none => rfl
  | some v => rfl

/-- The slots of an object that gives some of its fields. -/
theorem slots?_of_gives {fields : List (String × Option Json)} {members : List (String × Json)}
    (h : Gives fields members) (hnodup : (fields.map Prod.fst).Nodup) :
    (Json.object members).slots? (fields.map fun f => [f.1]) =
      some (fields.map fun f => .ofOption f.2) := by
  have hall : ∀ gs : List (String × Option Json), (∀ g ∈ gs, g ∈ fields) →
      (gs.map fun f => [f.1]).mapM (memberSlot? members) =
        some (gs.map fun f => .ofOption f.2) := by
    intro gs hgs
    induction gs with
    | nil => rfl
    | cons g gs ih =>
        have hg := memberSlot?_of_gives h hnodup (hgs g List.mem_cons_self)
        have hrest := ih fun f hf => hgs f (List.mem_cons_of_mem g hf)
        rw [List.map_cons, List.mapM_cons, hg, hrest]
        rfl
  exact hall fields fun _ hf => hf

/-- A field that is read back where it is given, and has its default where it is not. -/
theorem Slot.orDefault_ofOption {α : Type} {read? : Json → Option α} {v : Json} {a : α}
    (hread : read? v = some a) (default : α) (given : Bool) :
    (Slot.ofOption (if given then some v else none)).orDefault default read? =
      some (if given then a else default) := by
  cases given with
  | true => exact hread
  | false => rfl

/-! ## Values of one kind -/

theorem asString?_string (s : String) : asString? (.string s) = some s := rfl

theorem asUInt64?_ofUInt64 (n : UInt64) : asUInt64? (ofUInt64 n) = some n := by
  have hlt : n.toNat < UInt64.size := n.toNat_lt_size
  rw [ofUInt64, asUInt64?, if_pos hlt, UInt64.ofNat_toNat]

theorem mapM_map_of_reads {α β : Type} {write : α → β} {read? : β → Option α}
    (hread : ∀ a, read? (write a) = some a) (as : List α) :
    (as.map write).mapM read? = some as := by
  induction as with
  | nil => rfl
  | cons a as ih =>
      rw [List.map_cons, List.mapM_cons, hread, ih]
      rfl

theorem mapM_eq_none {α β : Type} {read? : α → Option β} {as : List α} {a : α} (ha : a ∈ as)
    (h : read? a = none) : as.mapM read? = none := by
  induction as with
  | nil => cases ha
  | cons b as ih =>
      rw [List.mapM_cons]
      rcases List.mem_cons.mp ha with rfl | ha
      · rw [h]
        rfl
      · rw [ih ha]
        cases read? b <;> rfl

theorem asList?_map {α : Type} {write : α → Json} {read? : Json → Option α}
    (hread : ∀ a, read? (write a) = some a) (as : List α) :
    asList? read? (.array (as.map write)) = some as :=
  mapM_map_of_reads hread as

theorem asMembers?_map {α : Type} {write : α → Json} {read? : Json → Option α}
    (hread : ∀ a, read? (write a) = some a) (pairs : List (String × α)) :
    asMembers? read? (.object (pairs.map fun p => (p.1, write p.2))) = some pairs := by
  apply mapM_map_of_reads
  intro p
  rw [hread]
  rfl

theorem asList?_ofStrings (ss : List String) : asList? asString? (ofStrings ss) = some ss :=
  asList?_map asString?_string ss

/-- No value in use is written like a missing one. -/
theorem asOption?_ofOption {α : Type} {write : α → Json} {read? : Json → Option α}
    (hread : ∀ a, read? (write a) = some a) (hnull : ∀ a, write a ≠ .null) (a : Option α) :
    asOption? read? (ofOption write a) = some a := by
  cases a with
  | none => rfl
  | some a =>
      have hsome : asOption? read? (write a) = (read? (write a)).map some := by
        unfold asOption?
        split
        · rename_i heq
          exact absurd heq (hnull a)
        · rfl
      rw [ofOption, hsome, hread]
      rfl

/-! ## Values that are read back -/

variable {α : Type} {write : α → Json} {read? : Json → Option α}

/-- The value that a document holds. -/
def decode? (read? : Json → Option α) (text : String) : Option α := (parse? text).bind read?

/-- Every value is read back from what is written of it, and that can be printed whole. -/
structure Faithful (write : α → Json) (read? : Json → Option α) : Prop where
  reads : ∀ a, read? (write a) = some a
  plain : ∀ a, Plain (write a)

namespace Faithful

theorem decode?_pretty (h : Faithful write read?) (a : α) :
    decode? read? (write a).pretty = some a := by
  rw [decode?, parse?_pretty (h.plain a), Option.bind_some, h.reads]

theorem list (h : Faithful write read?) :
    Faithful (fun as : List α => .array (as.map write)) (asList? read?) where
  reads := asList?_map h.reads
  plain as := by
    apply Plain.array
    intro v hv
    obtain ⟨a, -, rfl⟩ := List.mem_map.mp hv
    exact h.plain a

theorem option (h : Faithful write read?) (hnull : ∀ a, write a ≠ .null) :
    Faithful (ofOption write) (asOption? read?) where
  reads := asOption?_ofOption h.reads hnull
  plain a := by
    cases a with
    | none => exact .null
    | some a => exact h.plain a

theorem nullable_ofOption (h : Faithful write read?) (hnull : ∀ a, write a ≠ .null)
    (part : Option α) :
    (Slot.ofOption (part.map write)).nullable (asOption? read?) = some part := by
  cases part with
  | none => rfl
  | some a => exact (h.option hnull).reads (some a)

end Faithful

theorem faithful_string : Faithful Json.string asString? := ⟨asString?_string, Plain.string⟩

theorem faithful_uint64 : Faithful ofUInt64 asUInt64? :=
  ⟨asUInt64?_ofUInt64, fun n => .natural n.toNat⟩

theorem faithful_path : Faithful Path.toJson Path.ofJson? := ⟨fun _ => rfl, fun p => .string p.text⟩

theorem plain_object {members : List (String × Json)} (h : members.Forall fun m => Plain m.2) :
    Plain (.object members) :=
  .object (List.forall_iff_forall_mem.mp h)

end Docset.Json
