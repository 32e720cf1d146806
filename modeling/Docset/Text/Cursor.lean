/-!
# Positions in a text

A text is read left to right as a list of characters, while everything that is
reported about it counts bytes of its UTF-8 form. A cursor carries both: the
byte offset reached so far and the characters still ahead. Two searches turn a
byte offset into a cursor; one insists on a character boundary, the other moves
on to the next one. Cutting a text between two offsets can go wrong in exactly
two ways, listed by `OffsetError`.
-/
namespace Docset.Text

/-- Number of bytes that the characters take in UTF-8. -/
def byteLength (cs : List Char) : Nat :=
  cs.foldl (fun n c => n + c.utf8Size) 0

theorem foldl_utf8Size (cs : List Char) (n : Nat) :
    cs.foldl (fun n c => n + c.utf8Size) n = n + byteLength cs := by
  induction cs generalizing n with
  | nil => simp [byteLength]
  | cons c cs ih => simp only [byteLength, List.foldl_cons]; rw [ih, ih (0 + c.utf8Size)]; omega

@[simp] theorem byteLength_nil : byteLength [] = 0 := rfl

@[simp] theorem byteLength_cons (c : Char) (cs : List Char) :
    byteLength (c :: cs) = c.utf8Size + byteLength cs := by
  rw [byteLength, List.foldl_cons, foldl_utf8Size]; omega

@[simp] theorem byteLength_append (cs ds : List Char) :
    byteLength (cs ++ ds) = byteLength cs + byteLength ds := by
  induction cs with
  | nil => simp
  | cons c cs ih => simp only [List.cons_append, byteLength_cons, ih]; omega

/-- A place in a text: its byte offset and the characters from there on. -/
structure Cursor where
  offset : Nat
  rest : List Char
  deriving DecidableEq, Repr

/-- Why two byte offsets do not delimit a part of a text. -/
inductive OffsetError where
  | offBoundary (offset : Nat)
  | reversed (start stop : Nat)
  deriving DecidableEq, Repr

namespace Cursor

/-- `c` is a place of the text `cs`: what lies before it has as many bytes as its offset. -/
def In (c : Cursor) (cs : List Char) : Prop :=
  ∃ before, cs = before ++ c.rest ∧ c.offset = byteLength before

/-- Drops characters as long as `skipped` holds of them. -/
def skip (skipped : Char → Bool) : Nat → List Char → Cursor
  | offset, [] => ⟨offset, []⟩
  | offset, c :: rest =>
      if skipped c then skip skipped (offset + c.utf8Size) rest else ⟨offset, c :: rest⟩

/-- The place just past `lead`, if the text continues with it verbatim. -/
def past? : List Char → Nat → List Char → Option Cursor
  | [], offset, rest => some ⟨offset, rest⟩
  | _ :: _, _, [] => none
  | l :: lead, offset, c :: rest =>
      if l = c then past? lead (offset + c.utf8Size) rest else none

/-- The first character boundary at or after `target`, if the text reaches that far. -/
def seekUp? (target : Nat) : Nat → List Char → Option Cursor
  | offset, [] => if target ≤ offset then some ⟨offset, []⟩ else none
  | offset, c :: rest =>
      if target ≤ offset then some ⟨offset, c :: rest⟩
      else seekUp? target (offset + c.utf8Size) rest

/-- The character boundary `target` of a text. -/
def at? (text : String) (target : Nat) : Except OffsetError Cursor :=
  match seekUp? target 0 text.toList with
  | some c => if c.offset = target then .ok c else .error (.offBoundary target)
  | none => .error (.offBoundary target)

/-- The start of the part of a text between two boundaries. -/
def between? (text : String) (start stop : Nat) : Except OffsetError Cursor := do
  if stop < start then throw (.reversed start stop)
  let c ← at? text start
  let _ ← at? text stop
  return c

theorem skip_length_le (skipped : Char → Bool) (offset : Nat) (cs : List Char) :
    (skip skipped offset cs).rest.length ≤ cs.length := by
  induction cs generalizing offset with
  | nil => simp [skip]
  | cons c cs ih =>
      rw [skip]
      split
      · exact Nat.le_succ_of_le (ih _)
      · exact Nat.le_refl _

theorem past?_length_le {lead : List Char} {offset : Nat} {cs : List Char} {c : Cursor}
    (h : past? lead offset cs = some c) : c.rest.length ≤ cs.length := by
  induction lead generalizing offset cs with
  | nil => cases h; exact Nat.le_refl _
  | cons l lead ih =>
      cases cs with
      | nil => simp [past?] at h
      | cons d cs =>
          rw [past?] at h
          split at h
          · exact Nat.le_succ_of_le (ih h)
          · simp at h

end Cursor

end Docset.Text
