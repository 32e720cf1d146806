import Docset.Text.Words

/-!
# Decimal numbers, written and read

The decimal digits of a number are read back as that number; settings and documents alike
write numbers with these digits. A setting may say a number in other ways too, and the
numerals that are understood are told apart from all other texts.
-/
namespace Docset.Text

theorem foldl_toDigits (n : Nat) :
    (Nat.toDigits 10 n).foldl (fun n c => n * 10 + (c.toNat - '0'.toNat)) 0 = n := by
  have hvalue : Nat.ofDigitChars 10 (Nat.toDigits 10 n) 0 = n := Nat.ofDigitChars_ten_toDigits
  rw [Nat.ofDigitChars_eq_foldl] at hvalue
  simpa only [Nat.mul_comm 10] using hvalue

theorem isDigit_of_mem_toDigits {n : Nat} {c : Char} (h : c ∈ Nat.toDigits 10 n) :
    c.isDigit = true :=
  Nat.isDigit_of_mem_toDigits (by decide) (by decide) h

/-! ## What is a number -/

/-- The decimal numerals of a number: an optional plus sign and one or more ASCII digits. -/
def Numeral (s : String) (n : Nat) : Prop :=
  ∃ digits : List Char, digits ≠ [] ∧ (∀ c ∈ digits, c.isDigit = true) ∧
    (s.toList = digits ∨ s.toList = '+' :: digits) ∧ Nat.ofDigitChars 10 digits 0 = n

def afterPlus : List Char → List Char
  | '+' :: rest => rest
  | cs => cs

theorem afterPlus_of_digits {cs : List Char} (h : ∀ c ∈ cs, c.isDigit = true) :
    afterPlus cs = cs := by
  unfold afterPlus
  split
  · exact absurd (h '+' (by simp)) (by decide)
  · rfl

theorem eq_afterPlus_or (cs : List Char) : cs = afterPlus cs ∨ cs = '+' :: afterPlus cs := by
  unfold afterPlus
  split
  · exact .inr rfl
  · exact .inl rfl

theorem numeral_iff {s : String} {n : Nat} :
    Numeral s n ↔ afterPlus s.toList ≠ [] ∧ (∀ c ∈ afterPlus s.toList, c.isDigit = true) ∧
      Nat.ofDigitChars 10 (afterPlus s.toList) 0 = n := by
  constructor
  · rintro ⟨digits, hne, hdigits, htext, hvalue⟩
    have hafter : afterPlus s.toList = digits := by
      cases htext with
      | inl hplain => rw [hplain, afterPlus_of_digits hdigits]
      | inr hplus => rw [hplus, afterPlus]
    rw [hafter]
    exact ⟨hne, hdigits, hvalue⟩
  · rintro ⟨hne, hdigits, hvalue⟩
    exact ⟨afterPlus s.toList, hne, hdigits, eq_afterPlus_or s.toList, hvalue⟩

/-- What is read is the number of which the text is a numeral, if it has 64 bits. -/
theorem readUInt64?_eq_some_iff {s : String} {n : UInt64} :
    readUInt64? s = some n ↔ Numeral s n.toNat := by
  have hread : readUInt64? s =
      if (afterPlus s.toList).isEmpty || !(afterPlus s.toList).all Char.isDigit then none
      else if Nat.ofDigitChars 10 (afterPlus s.toList) 0 < UInt64.size then
        some (UInt64.ofNat (Nat.ofDigitChars 10 (afterPlus s.toList) 0)) else none := by
    simp only [Nat.ofDigitChars_eq_foldl, Nat.mul_comm 10]
    rfl
  rw [hread, numeral_iff]
  generalize afterPlus s.toList = digits
  split
  · rename_i hbad
    constructor
    · simp
    · rintro ⟨hne, hdigits, -⟩
      simp [hne, List.all_eq_true.mpr hdigits] at hbad
  · rename_i hgood
    simp only [Bool.or_eq_true, List.isEmpty_iff, Bool.not_eq_true', not_or, Bool.not_eq_false,
      List.all_eq_true] at hgood
    split
    · rename_i hlt
      rw [Option.some_inj, ← UInt64.toNat_inj, UInt64.toNat_ofNat_of_lt' hlt]
      exact ⟨fun h => ⟨hgood.1, hgood.2, h⟩, fun h => h.2.2⟩
    · rename_i hge
      have hlt := n.toNat_lt_size
      constructor
      · simp
      · rintro ⟨-, -, hvalue⟩
        omega

theorem readUInt64?_eq_none_iff {s : String} :
    readUInt64? s = none ↔ ¬ ∃ n, n < UInt64.size ∧ Numeral s n := by
  rw [Option.eq_none_iff_forall_ne_some]
  constructor
  · rintro h ⟨n, hlt, hn⟩
    apply h (UInt64.ofNat n)
    rwa [readUInt64?_eq_some_iff, UInt64.toNat_ofNat_of_lt' hlt]
  · intro h n hread
    exact h ⟨n.toNat, n.toNat_lt_size, readUInt64?_eq_some_iff.mp hread⟩

theorem readUInt64?_toString (n : UInt64) : readUInt64? (toString n.toNat) = some n := by
  rw [readUInt64?_eq_some_iff]
  refine ⟨Nat.toDigits 10 n.toNat, Nat.toDigits_ne_nil, fun c hc => isDigit_of_mem_toDigits hc,
    .inl ?_, Nat.ofDigitChars_ten_toDigits⟩
  rw [Nat.toString_eq_ofList_toDigits, String.toList_ofList]

end Docset.Text
