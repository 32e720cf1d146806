import Docset.Proofs.Config.Fields

/-!
# Configurations that settings lead to

A line may say a value in several ways, with blanks, empty items or a plus sign in it, but
the line that shows a value is read as that value again. So under every key of a
configuration that settings lead to from the default there is a value that is read back
from its own line, and setting a key to what getting it gives changes nothing.
-/
namespace Docset.Config

variable {c d : Config}

theorem readNumber_line (n : UInt64) : readNumber (toString n.toNat) = .ok n := by
  unfold readNumber
  rw [Text.readUInt64?_toString]

theorem readName_of_readName {k : Key} {text name : String} (h : readName k text = .ok name) :
    readName k name = .ok name := by
  unfold readName at h ⊢
  simp only at h ⊢
  split at h
  · cases h
  · rename_i hne
    obtain rfl := Except.ok.inj h
    rw [Text.trimString_trimString, if_neg hne]

/-- A number is shown neither by the word for no number nor by nothing. -/
theorem line_number_ne (n : UInt64) : ¬ (toString n.toNat = "none" ∨ toString n.toNat = "") := by
  have hread := Text.readUInt64?_toString n
  rintro (heq | heq)
  · rw [heq] at hread
    exact absurd hread (by simp [Text.readUInt64?])
  · rw [heq] at hread
    exact absurd hread (by simp [Text.readUInt64?])

namespace Key

/-- Whatever the line that a value was read from, its own line is read as the same value. -/
theorem read_line {k : Key} {text : String} {v : k.Value} (h : k.read text = .ok v) :
    k.read (k.line v) = .ok v := by
  cases k with
  | storybookDir => rfl
  | sourceRoot => rfl
  | outputDir => rfl
  | storySuffixes =>
      obtain rfl := Except.ok.inj h
      rw [line, read, Text.items_intercalate fun _ => Text.isItem_of_mem_items]
  | maxFileSizeKb =>
      rw [line, read]
      exact readNumber_line v
  | buildCommand =>
      obtain rfl := Except.ok.inj h
      rw [line, read, Text.words_intercalate fun _ => Text.isWord_of_mem_words]
  | extractCommand =>
      obtain rfl := Except.ok.inj h
      rw [line, read, Text.words_intercalate fun _ => Text.isWord_of_mem_words]
  | groupCall =>
      rw [read] at h
      rw [line, read, readName_of_readName h]
  | variantMethod =>
      rw [read] at h
      rw [line, read, readName_of_readName h]
  | maxInputLength =>
      cases v with
      | none => rfl
      | some n =>
          rw [line, read, if_neg (line_number_ne n), readNumber_line]
          rfl

end Key

/-- Under every key there is a value that is read back from its own line. -/
def Faithful (c : Config) : Prop := ∀ k : Key, k.read (k.line (c.field k)) = .ok (c.field k)

theorem faithful_default : Faithful {} := by
  intro k
  cases k with
  | storySuffixes =>
      have hread : Key.storySuffixes.read ".stories.js,.stories.jsx,.stories.ts,.stories.tsx" =
          .ok (field {} .storySuffixes) := by decide +kernel
      exact Key.read_line hread
  | buildCommand => exact Key.read_line (k := .buildCommand) rfl
  | extractCommand => exact Key.read_line (k := .extractCommand) rfl
  | maxFileSizeKb =>
      rw [Key.line, Key.read]
      exact readNumber_line _
  | maxInputLength =>
      have hread : Key.maxInputLength.read "4194304" = .ok (field {} .maxInputLength) := by
        decide +kernel
      exact Key.read_line hread
  | groupCall => decide +kernel
  | variantMethod => decide +kernel
  | storybookDir => rfl
  | sourceRoot => rfl
  | outputDir => rfl

theorem Faithful.setNamed {name text : String} (hc : Faithful c)
    (h : setNamed name text c = .ok () d) : Faithful d := by
  obtain ⟨k, v, -, hread, rfl⟩ := setNamed_eq_ok_iff.mp h
  intro j
  by_cases hj : j = k
  · subst hj
    rw [field_replace_self]
    exact Key.read_line hread
  · rw [field_replace_of_ne c v hj]
    exact hc j

/-- The configuration after one setting, whether it succeeds or fails. -/
def trySet (c : Config) (name text : String) : Config :=
  match setNamed name text c with
  | .ok () d => d
  | .error _ d => d

def trySetAll (c : Config) (settings : List (String × String)) : Config :=
  settings.foldl (fun c s => c.trySet s.1 s.2) c

theorem Faithful.trySet (hc : Faithful c) (name text : String) : Faithful (c.trySet name text) := by
  unfold Config.trySet
  cases h : Config.setNamed name text c with
  | ok u d => exact hc.setNamed h
  | error e d =>
      obtain rfl := eq_of_setNamed_error h
      exact hc

theorem Faithful.trySetAll (hc : Faithful c) (settings : List (String × String)) :
    Faithful (c.trySetAll settings) := by
  induction settings generalizing c with
  | nil => exact hc
  | cons s settings ih => exact ih (hc.trySet s.1 s.2)

theorem Faithful.setNamed_get (hc : Faithful c) (k : Key) :
    Config.setNamed k.name (c.get k) c = .ok () c := by
  rw [setNamed_eq_ok_iff, get_eq]
  exact ⟨k, c.field k, rfl, hc k, (replace_field c k).symm⟩

/-- After any settings, failed ones included, every key has a line, and setting the key to that line
succeeds and changes nothing. -/
theorem setNamed_get?_trySetAll (settings : List (String × String)) (k : Key) :
    ∃ text, (trySetAll {} settings).get? k.name = some text ∧
      setNamed k.name text (trySetAll {} settings) = .ok () (trySetAll {} settings) := by
  have hfaithful := faithful_default.trySetAll settings
  refine ⟨(trySetAll {} settings).get k, ?_, hfaithful.setNamed_get k⟩
  unfold get?
  rw [Key.ofName?_name, Option.map_some]

end Docset.Config
