import Docset.Scan.Call
import Docset.Scan.Literal

/-!
# Brace-balanced regions

Object literals and function bodies are stepped over as a whole. Inside a region
quoted literals are tracked, so that braces in them do not count; an escaped
character never ends a literal. A region has to close inside its window.

Within a window the text is read up to the next mark, which is an opening brace
or a call of the pattern looked for, whichever starts first.
-/
namespace Docset.Scan
open Text (Cursor)

/-- Reads on, `depth` braces deep and inside a literal if `quote` is set, to the place just past
the brace that closes the outermost one. A closing brace outside all braces is passed over. -/
def closeBrace (stop : Nat) : Nat → Option Char → Nat → List Char → Option Cursor
  | _, _, _, [] => none
  | depth, none, offset, c :: rest =>
      if stop ≤ offset then none
      else if c = '{' then closeBrace stop (depth + 1) none (offset + c.utf8Size) rest
      else if c = '}' then
        if depth = 1 then some ⟨offset + c.utf8Size, rest⟩
        else closeBrace stop (depth - 1) none (offset + c.utf8Size) rest
      else if isQuote c then closeBrace stop depth (some c) (offset + c.utf8Size) rest
      else closeBrace stop depth none (offset + c.utf8Size) rest
  | _, some _, _, ['\\'] => none
  | depth, some quote, offset, '\\' :: c :: rest =>
      if stop ≤ offset then none
      else closeBrace stop depth (some quote) (offset + 1 + c.utf8Size) rest
  | depth, some quote, offset, c :: rest =>
      if stop ≤ offset then none
      else if c = quote then closeBrace stop depth none (offset + c.utf8Size) rest
      else closeBrace stop depth (some quote) (offset + c.utf8Size) rest

/-- The place just past the region that opens at `c`. -/
def matchBrace (stop : Nat) (c : Cursor) : Except Error Cursor :=
  match closeBrace stop 0 none c.offset c.rest with
  | some d => .ok d
  | none => .error (.unbalancedBraces c.offset)

/-- What the text of a window is searched for. -/
inductive Mark where
  /-- An opening brace, with the place in front of it. -/
  | brace (place : Cursor)
  /-- A call, with the place just past its parenthesis. -/
  | call (args : Cursor)
  deriving DecidableEq, Repr

/-- The first mark of a window. -/
def mark? (p : CallPattern) (stop : Nat) : Nat → List Char → Option Mark
  | _, [] => none
  | offset, c :: rest =>
      if stop ≤ offset then none
      else if c = '{' then some (.brace ⟨offset, c :: rest⟩)
      else
        match p.args? offset (c :: rest) with
        | some args =>
            if args.offset ≤ stop then some (.call args)
            else mark? p stop (offset + c.utf8Size) rest
        | none => mark? p stop (offset + c.utf8Size) rest

/-- The end of the region that opens at `start` and closes by `stop`. -/
def matchBraceIn (text : String) (start stop : Nat) :
    Except Text.OffsetError (Except Error Cursor) := do
  let c ← Cursor.between? text start stop
  return matchBrace stop c

/-- The first mark of `text` between `start` and `stop`. -/
def markIn? (p : CallPattern) (text : String) (start stop : Nat) :
    Except Text.OffsetError (Option Mark) := do
  let c ← Cursor.between? text start stop
  return mark? p stop c.offset c.rest

theorem closeBrace_length_lt {stop depth : Nat} {quote : Option Char} {offset : Nat}
    {rest : List Char} {c : Cursor} (h : closeBrace stop depth quote offset rest = some c) :
    c.rest.length < rest.length := by
  fun_induction closeBrace stop depth quote offset rest with
  | case1 => simp at h
  | case2 => simp at h
  | case3 => rename_i ih; exact Nat.lt_succ_of_lt (ih h)
  | case4 => cases h; simp
  | case5 => rename_i ih; exact Nat.lt_succ_of_lt (ih h)
  | case6 => rename_i ih; exact Nat.lt_succ_of_lt (ih h)
  | case7 => rename_i ih; exact Nat.lt_succ_of_lt (ih h)
  | case8 => simp at h
  | case9 => simp at h
  | case10 => rename_i ih; have := ih h; simp only [List.length_cons]; omega
  | case11 => simp at h
  | case12 => rename_i ih; exact Nat.lt_succ_of_lt (ih h)
  | case13 => rename_i ih; exact Nat.lt_succ_of_lt (ih h)

theorem matchBrace_length_lt {stop : Nat} {c d : Cursor} (h : matchBrace stop c = .ok d) :
    d.rest.length < c.rest.length := by
  rw [matchBrace] at h
  split at h
  · rename_i hclose; cases h; exact closeBrace_length_lt hclose
  · simp at h

theorem mark?_brace_length_le {p : CallPattern} {stop offset : Nat} {rest : List Char}
    {c : Cursor} (h : mark? p stop offset rest = some (.brace c)) :
    c.rest.length ≤ rest.length := by
  induction rest generalizing offset with
  | nil => simp [mark?] at h
  | cons d rest ih =>
      rw [mark?] at h
      split at h
      · simp at h
      · split at h
        · cases h; exact Nat.le_refl _
        · split at h
          · split at h
            · simp at h
            · exact Nat.le_succ_of_le (ih h)
          · exact Nat.le_succ_of_le (ih h)

theorem mark?_call_length_lt {p : CallPattern} {stop offset : Nat} {rest : List Char}
    {c : Cursor} (h : mark? p stop offset rest = some (.call c)) :
    c.rest.length < rest.length := by
  induction rest generalizing offset with
  | nil => simp [mark?] at h
  | cons d rest ih =>
      rw [mark?] at h
      split at h
      · simp at h
      · split at h
        · simp at h
        · split at h
          · rename_i hargs
            split at h
            · cases h; exact CallPattern.args?_length_lt hargs
            · exact Nat.lt_succ_of_lt (ih h)
          · exact Nat.lt_succ_of_lt (ih h)

end Docset.Scan
