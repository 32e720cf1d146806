import Docset.Text.Blank
import Docset.Text.Cursor

/-!
# Calls

A call is recognised by its spelling alone: the name as written, any white space,
and an opening parenthesis. Nothing is asked of the characters around it, so the
name may be the tail of a longer word. A search is confined to a window: the
whole call, parenthesis included, lies before the window's end. Among the calls
of a window the one that starts first is found.
-/
namespace Docset.Scan
open Text (Cursor)

/-- What stands in front of the white space and the parenthesis of a call. -/
structure CallPattern where
  lead : List Char
  deriving DecidableEq, Repr

/-- A call found in a text: where it starts, and the place just past its parenthesis. -/
structure CallMatch where
  start : Nat
  args : Cursor
  deriving DecidableEq, Repr

namespace CallPattern

/-- Calls of a free function, `name(`. -/
def function (name : String) : CallPattern := ⟨name.toList⟩

/-- Calls of a method, `.name(`. -/
def method (name : String) : CallPattern := ⟨'.' :: name.toList⟩

/-- The place just past the parenthesis of the call that starts right here. -/
def args? (p : CallPattern) (offset : Nat) (rest : List Char) : Option Cursor :=
  match Cursor.past? p.lead offset rest with
  | none => none
  | some c =>
      match Cursor.skip Text.isWhiteSpace c.offset c.rest with
      | ⟨stop, '(' :: rest⟩ => some ⟨stop + 1, rest⟩
      | _ => none

/-- The first call that starts here or later and ends no later than `stop`. -/
def find? (p : CallPattern) (stop : Nat) : Nat → List Char → Option CallMatch
  | _, [] => none
  | offset, c :: rest =>
      if stop ≤ offset then none
      else
        match p.args? offset (c :: rest) with
        | some args =>
            if args.offset ≤ stop then some ⟨offset, args⟩
            else find? p stop (offset + c.utf8Size) rest
        | none => find? p stop (offset + c.utf8Size) rest

/-- The first call of `text` in the window from `start` to `stop`. The end has to be a character
boundary; a start inside a character stands for the boundary after it, and a start just past the
end finds nothing. -/
def findIn? (p : CallPattern) (text : String) (start stop : Nat) :
    Except Text.OffsetError (Option CallMatch) := do
  let _ ← Cursor.at? text stop
  if stop + 1 < start then throw (.reversed start stop)
  match Cursor.seekUp? start 0 text.toList with
  | some c => return p.find? stop c.offset c.rest
  | none => return none

theorem args?_length_lt {p : CallPattern} {offset : Nat} {rest : List Char} {c : Cursor}
    (h : p.args? offset rest = some c) : c.rest.length < rest.length := by
  rw [args?] at h
  split at h
  · simp at h
  · rename_i d hd
    have hle := Cursor.past?_length_le hd
    have hskip := Cursor.skip_length_le Text.isWhiteSpace d.offset d.rest
    split at h
    · rename_i heq
      rw [heq] at hskip
      cases h
      simp only [List.length_cons] at hskip
      simp only
      omega
    · simp at h

theorem find?_length_lt {p : CallPattern} {stop offset : Nat} {rest : List Char} {m : CallMatch}
    (h : p.find? stop offset rest = some m) : m.args.rest.length < rest.length := by
  induction rest generalizing offset with
  | nil => simp [find?] at h
  | cons c rest ih =>
      rw [find?] at h
      split at h
      · simp at h
      · split at h
        · rename_i hargs
          split at h
          · cases h; exact args?_length_lt hargs
          · exact Nat.lt_succ_of_lt (ih h)
        · exact Nat.lt_succ_of_lt (ih h)

end CallPattern

end Docset.Scan
