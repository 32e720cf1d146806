import Docset.Proofs.Text.Slice

/-!
# Boundaries of characters

A byte offset is a boundary of a text if a place of the text has it. Searching for a
boundary by its offset succeeds, and so does cutting a text between two boundaries in
order.
-/
namespace Docset.Text

/-- Byte `i` is where a character of the text starts, or its end. -/
def Boundary (cs : List Char) (i : Nat) : Prop := ∃ c : Cursor, c.In cs ∧ c.offset = i

namespace Cursor

theorem seekUp?_append (offset : Nat) (before rest : List Char) :
    seekUp? (offset + byteLength before) offset (before ++ rest) =
      some ⟨offset + byteLength before, rest⟩ := by
  induction before generalizing offset with
  | nil =>
      cases rest with
      | nil => simp [seekUp?]
      | cons c rest => simp [seekUp?]
  | cons c before ih =>
      have hpos := c.utf8Size_pos
      rw [List.cons_append, seekUp?, byteLength_cons, if_neg (by omega), ← Nat.add_assoc, ih]

theorem In.seekUp? {c : Cursor} {cs : List Char} (hc : c.In cs) :
    Cursor.seekUp? c.offset 0 cs = some c := by
  obtain ⟨before, rfl, hoffset⟩ := hc
  have hseek := seekUp?_append 0 before c.rest
  rw [Nat.zero_add, ← hoffset] at hseek
  exact hseek

variable {text : String} {c d : Cursor}

theorem In.at? (hc : c.In text.toList) : Cursor.at? text c.offset = .ok c := by
  rw [Cursor.at?, hc.seekUp?]
  simp only [if_true]

theorem In.between? (hc : c.In text.toList) (hd : d.In text.toList) (h : c.offset ≤ d.offset) :
    Cursor.between? text c.offset d.offset = .ok c := by
  rw [Cursor.between?, if_neg (Nat.not_lt.mpr h), hc.at?, hd.at?]
  rfl

end Cursor

end Docset.Text
