import Docset.Cli.Run
import Docset.Proofs.Config.Reachable

/-!
# Which settings are refused, and what the others change

A setting names a key and gives a line for it. It is refused if there is no such key or if
the line does not say a value of the key, and which lines do is said here about their
characters. A setting that is refused changes nothing, neither the configuration nor what
is stored of it. A setting that is not changes what is held under its key and nothing else,
and what is held there then comes from the line alone.
-/
namespace Docset.Config

variable {name text : String} {e : SetError} {c d : Config}

/-- Whether a line is an unsigned decimal of 64 bits. -/
def IsNumber (text : String) : Prop := ∃ n, n < UInt64.size ∧ Text.Numeral text n

def IsBlank (text : String) : Prop := ∀ c ∈ text.toList, Text.isWhiteSpace c = true

/-- The settings that are refused, each with what is said about it. -/
inductive Refused (text : String) : (name : String) → SetError → Prop
  | unknown {name : String} (hname : name ∉ Key.all.map Key.name) :
      Refused text name (.unknownKey name)
  | size (hnumber : ¬ IsNumber text) : Refused text "max_file_size_kb" (.invalidNumber text)
  | length (hempty : text ≠ "") (hnone : text ≠ "none") (hnumber : ¬ IsNumber text) :
      Refused text "max_input_len" (.invalidNumber text)
  | groupCall (hblank : IsBlank text) : Refused text "group_call" (.emptyValue "group_call")
  | variantMethod (hblank : IsBlank text) :
      Refused text "variant_method" (.emptyValue "variant_method")

theorem readNumber_eq_error_iff :
    readNumber text = .error e ↔ ¬ IsNumber text ∧ e = .invalidNumber text := by
  have hnone := Text.readUInt64?_eq_none_iff (s := text)
  unfold readNumber
  cases hread : Text.readUInt64? text with
  | none =>
      rw [hread] at hnone
      have hnot : ¬ IsNumber text := hnone.mp rfl
      simp [hnot, eq_comm]
  | some n =>
      rw [hread] at hnone
      have hnumber : IsNumber text := by
        by_contra hnot
        cases hnone.mpr hnot
      simp [hnumber]

theorem readName_eq_error_iff {k : Key} :
    readName k text = .error e ↔ IsBlank text ∧ e = .emptyValue k.name := by
  unfold readName IsBlank
  rw [← Text.trimString_isEmpty_iff]
  simp only
  split
  · rename_i hempty
    simp [hempty, eq_comm]
  · rename_i hfull
    simp [hfull]

theorem Key.name_mem (k : Key) : k.name ∈ Key.all.map Key.name := by
  apply List.mem_map_of_mem
  cases k <;> decide

namespace Refused

/-- For each key, what is refused is what is not read. -/
theorem iff_read (k : Key) : Refused text k.name e ↔ k.read text = .error e := by
  constructor
  · intro h
    generalize hname : k.name = name at h
    cases h with
    | unknown hunknown => exact absurd (hname ▸ k.name_mem) hunknown
    | size hnumber =>
        obtain rfl := Key.name_injective (j := .maxFileSizeKb) hname
        exact readNumber_eq_error_iff.mpr ⟨hnumber, rfl⟩
    | length hempty hnone hnumber =>
        obtain rfl := Key.name_injective (j := .maxInputLength) hname
        have hread := readNumber_eq_error_iff.mpr ⟨hnumber, rfl⟩
        rw [Key.read, if_neg (by simp [hempty, hnone]), hread]
        rfl
    | groupCall hblank =>
        obtain rfl := Key.name_injective (j := .groupCall) hname
        rw [Key.read, readName_eq_error_iff]
        exact ⟨hblank, rfl⟩
    | variantMethod hblank =>
        obtain rfl := Key.name_injective (j := .variantMethod) hname
        rw [Key.read, readName_eq_error_iff]
        exact ⟨hblank, rfl⟩
  · intro h
    cases k with
    | maxFileSizeKb =>
        obtain ⟨hnumber, rfl⟩ := readNumber_eq_error_iff.mp h
        exact .size hnumber
    | groupCall =>
        rw [Key.read, readName_eq_error_iff] at h
        obtain ⟨hblank, rfl⟩ := h
        exact .groupCall hblank
    | variantMethod =>
        rw [Key.read, readName_eq_error_iff] at h
        obtain ⟨hblank, rfl⟩ := h
        exact .variantMethod hblank
    | maxInputLength =>
        rw [Key.read] at h
        split at h
        · cases h
        · rename_i hword
          rw [not_or] at hword
          cases hread : readNumber text with
          | ok n =>
              rw [hread] at h
              cases h
          | error e' =>
              rw [hread] at h
              cases h
              obtain ⟨hnumber, rfl⟩ := readNumber_eq_error_iff.mp hread
              exact .length hword.2 hword.1 hnumber
    | _ => cases h

end Refused

theorem setNamed_eq_error_iff :
    setNamed name text c = .error e d ↔ Refused text name e ∧ d = c := by
  unfold setNamed
  cases hkey : Key.ofName? name with
  | none =>
      have hunknown : name ∉ Key.all.map Key.name := by
        intro hmem
        obtain ⟨k, -, rfl⟩ := List.mem_map.mp hmem
        rw [Key.ofName?_name] at hkey
        cases hkey
      constructor
      · intro h
        cases h
        exact ⟨.unknown hunknown, rfl⟩
      · rintro ⟨h, rfl⟩
        cases h with
        | unknown => rfl
        | _ => exact absurd (by decide) hunknown
  | some k =>
      obtain rfl := Key.name_eq_of_ofName? hkey
      simp only [Refused.iff_read, set_eq]
      cases k.read text with
      | error e' => simp [eq_comm]
      | ok v => simp

theorem get?_replace_of_ne (c : Config) {k : Key} (v : k.Value) (h : name ≠ k.name) :
    (c.replace k v).get? name = c.get? name := by
  unfold get?
  cases hkey : Key.ofName? name with
  | none => rfl
  | some j =>
      have hj : j ≠ k := by
        intro heq
        exact h (heq ▸ Key.name_eq_of_ofName? hkey).symm
      rw [Option.map_some, Option.map_some, get_eq, get_eq, field_replace_of_ne c v hj]

theorem configSet_of_setNamed_error (h : setNamed name text c = .error e d) (env : Environment)
    (fs : FileSystem) {key : String} (hkey : Cli.normalizeKey key = name) :
    ∃ failure, Cli.configSet env c key text fs = .error failure fs := by
  unfold Cli.configSet
  rw [hkey, h]
  exact ⟨_, rfl⟩

/-- A setting that is not refused changes what its key names, and nothing else. -/
theorem changed_of_ok (h : setNamed name text c = .ok () d) :
    ∃ k : Key, k.name = name ∧ (∀ j, j ≠ k → d.field j = c.field j) ∧
      (∀ other, other ≠ name → d.get? other = c.get? other) ∧
      ∀ b : Config, ∃ b', setNamed name text b = .ok () b' ∧ b'.field k = d.field k := by
  obtain ⟨k, v, hname, hread, rfl⟩ := setNamed_eq_ok_iff.mp h
  refine ⟨k, hname, fun j hj => field_replace_of_ne c v hj, fun other hother => ?_, fun b => ?_⟩
  · exact get?_replace_of_ne c v (hname ▸ hother)
  · refine ⟨b.replace k v, setNamed_eq_ok_iff.mpr ⟨k, v, hname, hread, rfl⟩, ?_⟩
    rw [field_replace_self, field_replace_self]

/-- Setting a key of any configuration to any line is all or nothing: it fails exactly if the
setting is refused, and leaves the configuration and every stored file as they are; else only what
is held under the key changes, the other keys are shown as before, and what is held under the key is
the same whatever was there. -/
theorem setNamed_all_or_nothing (c : Config) (name text : String) :
    (∀ e, (∃ d, setNamed name text c = .error e d) ↔ Refused text name e) ∧
      (∀ e d, setNamed name text c = .error e d →
        d = c ∧ ∀ env key fs, Cli.normalizeKey key = name →
          ∃ failure, Cli.configSet env c key text fs = .error failure fs) ∧
      ∀ d, setNamed name text c = .ok () d →
        ∃ k : Key, k.name = name ∧ (∀ j, j ≠ k → d.field j = c.field j) ∧
          (∀ other, other ≠ name → d.get? other = c.get? other) ∧
          ∀ b : Config, ∃ b', setNamed name text b = .ok () b' ∧ b'.field k = d.field k := by
  refine ⟨fun e => ?_, fun e d h => ?_, fun d h => changed_of_ok h⟩
  · constructor
    · rintro ⟨d, h⟩
      exact (setNamed_eq_error_iff.mp h).1
    · intro h
      exact ⟨c, setNamed_eq_error_iff.mpr ⟨h, rfl⟩⟩
  · refine ⟨eq_of_setNamed_error h, fun env key fs hkey => ?_⟩
    exact configSet_of_setNamed_error h env fs hkey

/-- One above the largest number is refused as a size, and the number before it is accepted with
everything else left as it is. -/
theorem setNamed_all_or_nothing_at_largest :
    (∃ e, setNamed "max_file_size_kb" "18446744073709551616" {} = .error e {} ∧
      Refused "18446744073709551616" "max_file_size_kb" e ∧
      ∃ failure, Cli.configSet {} {} "max-file-size-kb" "18446744073709551616" ⟨[], []⟩ =
        .error failure ⟨[], []⟩) ∧
    ∃ d, setNamed "max_file_size_kb" "+18446744073709551615" {} = .ok () d ∧
      d.maxFileSizeKb = 18446744073709551615 ∧ d.get? "group_call" = get? {} "group_call" := by
  constructor
  · obtain ⟨hrefused, hunchanged, -⟩ :=
      setNamed_all_or_nothing {} "max_file_size_kb" "18446744073709551616"
    have herror : setNamed "max_file_size_kb" "18446744073709551616" {} =
        .error (.invalidNumber "18446744073709551616") {} := by rfl
    obtain ⟨-, hstored⟩ := hunchanged _ _ herror
    exact ⟨_, herror, (hrefused _).mp ⟨_, herror⟩, hstored {} _ _ (by decide +kernel)⟩
  · obtain ⟨-, -, hchanged⟩ :=
      setNamed_all_or_nothing {} "max_file_size_kb" "+18446744073709551615"
    have hok : setNamed "max_file_size_kb" "+18446744073709551615" {} =
        .ok () { maxFileSizeKb := 18446744073709551615 } := by rfl
    obtain ⟨_, -, -, hget, -⟩ := hchanged _ hok
    exact ⟨_, hok, rfl, hget "group_call" (by decide)⟩

end Docset.Config
