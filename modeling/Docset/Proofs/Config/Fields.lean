import Docset.Config.Basic
import Docset.Proofs.Text.Decimal
import Docset.Proofs.Text.Words

/-!
# The fields of a configuration

A configuration is what it holds under its keys, each key with values of its own type.
Setting a key reads a line as a value of the key and puts it in the place of the old one;
getting a key shows the value as a line. So everything about lines is said key by key,
about reading and showing, and everything about configurations is said once for all keys,
about replacing one value by another.
-/
namespace Docset.Config

namespace Key

/-- What can be held under a key. -/
abbrev Value : Key → Type
  | storybookDir => Path
  | sourceRoot => Path
  | outputDir => Path
  | storySuffixes => List String
  | maxFileSizeKb => UInt64
  | buildCommand => List String
  | extractCommand => List String
  | groupCall => String
  | variantMethod => String
  | maxInputLength => Option UInt64

def line : (k : Key) → k.Value → String
  | storybookDir, p => p.text
  | sourceRoot, p => p.text
  | outputDir, p => p.text
  | storySuffixes, suffixes => ",".intercalate suffixes
  | maxFileSizeKb, n => toString n.toNat
  | buildCommand, words => " ".intercalate words
  | extractCommand, words => " ".intercalate words
  | groupCall, name => name
  | variantMethod, name => name
  | maxInputLength, some n => toString n.toNat
  | maxInputLength, none => "none"

def read : (k : Key) → String → Except SetError k.Value
  | storybookDir, text => .ok ⟨text⟩
  | sourceRoot, text => .ok ⟨text⟩
  | outputDir, text => .ok ⟨text⟩
  | storySuffixes, text => .ok (Text.items text)
  | maxFileSizeKb, text => readNumber text
  | buildCommand, text => .ok (Text.words text)
  | extractCommand, text => .ok (Text.words text)
  | groupCall, text => readName groupCall text
  | variantMethod, text => readName variantMethod text
  | maxInputLength, text =>
      if text = "none" ∨ text = "" then .ok none else (readNumber text).map some

theorem ofName?_name (k : Key) : ofName? k.name = some k := by cases k <;> decide

theorem name_injective {k j : Key} (h : k.name = j.name) : k = j := by
  have hk := ofName?_name k
  rw [h, ofName?_name] at hk
  exact (Option.some.inj hk).symm

theorem name_eq_of_ofName? {name : String} {k : Key} (h : ofName? name = some k) :
    k.name = name := by
  unfold ofName? at h
  simpa using List.find?_some h

end Key

variable {c d : Config} {k j : Key}

def field (c : Config) : (k : Key) → k.Value
  | .storybookDir => c.storybookDir
  | .sourceRoot => c.sourceRoot
  | .outputDir => c.outputDir
  | .storySuffixes => c.storySuffixes
  | .maxFileSizeKb => c.maxFileSizeKb
  | .buildCommand => c.buildCommand
  | .extractCommand => c.extractCommand
  | .groupCall => c.scan.groupCall
  | .variantMethod => c.scan.variantMethod
  | .maxInputLength => c.scan.maxInputLength

/-- The configuration that holds `v` under `k`, and else what it held. -/
def replace (c : Config) : (k : Key) → k.Value → Config
  | .storybookDir, p => { c with storybookDir := p }
  | .sourceRoot, p => { c with sourceRoot := p }
  | .outputDir, p => { c with outputDir := p }
  | .storySuffixes, suffixes => { c with storySuffixes := suffixes }
  | .maxFileSizeKb, n => { c with maxFileSizeKb := n }
  | .buildCommand, words => { c with buildCommand := words }
  | .extractCommand, words => { c with extractCommand := words }
  | .groupCall, name => { c with scan := { c.scan with groupCall := name } }
  | .variantMethod, name => { c with scan := { c.scan with variantMethod := name } }
  | .maxInputLength, limit => { c with scan := { c.scan with maxInputLength := limit } }

@[simp] theorem field_replace_self (c : Config) (k : Key) (v : k.Value) :
    (c.replace k v).field k = v := by
  cases k <;> rfl

theorem field_replace_of_ne (c : Config) (v : k.Value) (h : j ≠ k) :
    (c.replace k v).field j = c.field j := by
  cases k <;> cases j <;> simp_all [replace, field]

@[simp] theorem replace_field (c : Config) (k : Key) : c.replace k (c.field k) = c := by
  cases k <;> rfl

theorem ext_field (h : ∀ k, c.field k = d.field k) : c = d := by
  obtain ⟨_, _, _, _, _, _, _, _, _, _⟩ := c
  obtain ⟨_, _, _, _, _, _, _, _, _, _⟩ := d
  obtain rfl := h .storybookDir
  obtain rfl := h .sourceRoot
  obtain rfl := h .outputDir
  obtain rfl := h .storySuffixes
  obtain rfl := h .maxFileSizeKb
  obtain rfl := h .buildCommand
  obtain rfl := h .extractCommand
  obtain rfl := h .groupCall
  obtain rfl := h .variantMethod
  obtain rfl := h .maxInputLength
  rfl

theorem get_eq (c : Config) (k : Key) : c.get k = k.line (c.field k) := by
  cases k with
  | maxInputLength =>
      unfold get field
      cases c.scan.maxInputLength <;> rfl
  | _ => rfl

/-! ## Settings -/

/-- A step that reads a value and then writes it changes nothing if the value cannot be read. -/
theorem read_then_modify {α : Type} (x : Except SetError α) (write : α → Config → Config)
    (c : Config) :
    (do let a ← MonadExcept.ofExcept x
        modify (write a) : Change) c =
      match x with
      | .ok a => .ok () (write a c)
      | .error e => .error e c := by
  cases x <;> rfl

theorem set_eq (c : Config) (k : Key) (text : String) :
    set k text c =
      match k.read text with
      | .ok v => .ok () (c.replace k v)
      | .error e => .error e c := by
  cases k with
  | maxFileSizeKb =>
      rw [set, Key.read, read_then_modify]
      cases readNumber text <;> rfl
  | groupCall =>
      rw [set, Key.read, read_then_modify]
      cases readName .groupCall text <;> rfl
  | variantMethod =>
      rw [set, Key.read, read_then_modify]
      cases readName .variantMethod text <;> rfl
  | maxInputLength =>
      rw [set, Key.read]
      split
      · rfl
      · rw [read_then_modify]
        cases readNumber text <;> rfl
  | _ => rfl

theorem setNamed_name (c : Config) (k : Key) (text : String) :
    setNamed k.name text c = set k text c := by
  unfold setNamed
  rw [Key.ofName?_name]

theorem setNamed_eq_ok_iff {name text : String} :
    setNamed name text c = .ok () d ↔
      ∃ k v, k.name = name ∧ k.read text = .ok v ∧ d = c.replace k v := by
  constructor
  · intro h
    unfold setNamed at h
    cases hkey : Key.ofName? name with
    | none =>
        rw [hkey] at h
        cases h
    | some k =>
        simp only [hkey, set_eq] at h
        cases hread : k.read text with
        | error e =>
            rw [hread] at h
            cases h
        | ok v =>
            rw [hread] at h
            cases h
            exact ⟨k, v, Key.name_eq_of_ofName? hkey, hread, rfl⟩
  · rintro ⟨k, v, rfl, hread, rfl⟩
    rw [setNamed_name, set_eq, hread]

theorem eq_of_setNamed_error {name text : String} {e : SetError}
    (h : setNamed name text c = .error e d) : d = c := by
  unfold setNamed at h
  cases hkey : Key.ofName? name with
  | none =>
      rw [hkey] at h
      cases h
      rfl
  | some k =>
      simp only [hkey, set_eq] at h
      cases hread : k.read text with
      | error e' =>
          rw [hread] at h
          cases h
          rfl
      | ok v =>
          rw [hread] at h
          cases h

end Docset.Config
