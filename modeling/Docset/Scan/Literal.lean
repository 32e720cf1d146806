import Docset.Scan.Error
import Docset.Text.Blank
import Docset.Text.Cursor

/-!
# Quoted literals

A literal is enclosed in single or double quotes. A backslash stands for the
character after it, whatever that is; no letter has a meaning of its own after one,
so `\n` reads as the letter `n`. Layout characters in front of a literal are
skipped.
-/
namespace Docset.Scan
open Text (Cursor)

def isQuote (c : Char) : Bool := c = '\'' || c = '"'

/-- A literal that was read: its contents and the place just past its closing quote. -/
structure Literal where
  value : String
  stop : Cursor
  deriving DecidableEq, Repr

namespace Literal

/-- Reads up to the first unescaped `quote`; `seen` holds the contents so far, last first. -/
def body (quote : Char) : Nat → List Char → List Char → Option Literal
  | _, [], _ => none
  | _, ['\\'], _ => none
  | offset, '\\' :: c :: rest, seen => body quote (offset + 1 + c.utf8Size) rest (c :: seen)
  | offset, c :: rest, seen =>
      if c = quote then some ⟨String.ofList seen.reverse, ⟨offset + c.utf8Size, rest⟩⟩
      else body quote (offset + c.utf8Size) rest (c :: seen)

/-- Reads the literal that starts here after optional layout; `none` if only layout is left. -/
def read? (c : Cursor) : Except Error (Option Literal) :=
  match Cursor.skip Text.isLayout c.offset c.rest with
  | ⟨_, []⟩ => .ok none
  | ⟨offset, quote :: rest⟩ =>
      if isQuote quote then
        match body quote (offset + quote.utf8Size) rest [] with
        | some literal => .ok (some literal)
        | none => .error (.unterminatedLiteral offset)
      else .error (.malformedLiteral offset quote)

theorem body_length_lt {quote : Char} {offset : Nat} {rest seen : List Char} {l : Literal}
    (h : body quote offset rest seen = some l) : l.stop.rest.length < rest.length := by
  fun_induction body quote offset rest seen with
  | case1 => simp at h
  | case2 => simp at h
  | case3 offset seen c rest ih => have := ih h; simp only [List.length_cons]; omega
  | case4 offset rest seen => cases h; simp
  | case5 offset seen c rest _ _ _ ih => have := ih h; simp only [List.length_cons]; omega

theorem read?_length_lt {c : Cursor} {l : Literal} (h : read? c = .ok (some l)) :
    l.stop.rest.length < c.rest.length := by
  have hskip := Cursor.skip_length_le Text.isLayout c.offset c.rest
  rw [read?] at h
  split at h
  · simp at h
  · rename_i offset quote rest heq
    rw [heq] at hskip
    simp only [List.length_cons] at hskip
    split at h
    · split at h
      · rename_i hbody
        cases h
        have := body_length_lt hbody
        omega
      · simp at h
    · simp at h

end Literal

end Docset.Scan
