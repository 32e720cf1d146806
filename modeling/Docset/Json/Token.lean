import Docset.Json.Basic

/-!
# JSON tokens

A document is first cut into tokens. Strings are read as sequences of UTF-16
units, because an escape names a unit and two of them may make one character;
the units are joined afterwards. Numbers follow the JSON grammar: no leading
zeros, and at least one digit on each side of a point and in an exponent.
-/
namespace Docset.Json

inductive Token where
  | openBrace
  | closeBrace
  | openBracket
  | closeBracket
  | colon
  | comma
  | null
  | bool (b : Bool)
  | natural (n : Nat)
  | number
  /-- A string; `none` if its units do not form characters. -/
  | string (s : Option String)
  deriving DecidableEq, Repr

/-- The value of a hexadecimal digit. -/
def hexValue? (c : Char) : Option Nat :=
  if '0' ≤ c ∧ c ≤ '9' then some (c.toNat - '0'.toNat)
  else if 'a' ≤ c ∧ c ≤ 'f' then some (c.toNat - 'a'.toNat + 10)
  else if 'A' ≤ c ∧ c ≤ 'F' then some (c.toNat - 'A'.toNat + 10)
  else none

/-- The unit that four hexadecimal digits name. -/
def unit? (a b c d : Char) : Option Nat := do
  return (← hexValue? a) * 4096 + (← hexValue? b) * 256 + (← hexValue? c) * 16 + (← hexValue? d)

/-- The character that a backslash and one letter stand for. -/
def shortEscape? (c : Char) : Option Char :=
  if c = '"' then some '"'
  else if c = '\\' then some '\\'
  else if c = '/' then some '/'
  else if c = 'b' then some '\x08'
  else if c = 'f' then some '\x0C'
  else if c = 'n' then some '\n'
  else if c = 'r' then some '\r'
  else if c = 't' then some '\t'
  else none

/-- Reads to the closing quote; `seen` holds code points and units so far, last first. -/
def stringUnits (seen : List Nat) : List Char → Option (List Nat × List Char)
  | [] => none
  | ['\\'] => none
  | '\\' :: 'u' :: a :: b :: c :: d :: rest =>
      match unit? a b c d with
      | some u => stringUnits (u :: seen) rest
      | none => none
  | '\\' :: c :: rest =>
      match shortEscape? c with
      | some e => stringUnits (e.toNat :: seen) rest
      | none => none
  | c :: rest =>
      if c = '"' then some (seen.reverse, rest)
      else if c < ' ' then none
      else stringUnits (c.toNat :: seen) rest

def isHighSurrogate (u : Nat) : Bool := 0xD800 ≤ u && u < 0xDC00

def isLowSurrogate (u : Nat) : Bool := 0xDC00 ≤ u && u < 0xE000

/-- Joins surrogate pairs; a surrogate without its partner is no character. -/
def joinUnits? (seen : List Char) : List Nat → Option (List Char)
  | [] => some seen.reverse
  | [u] =>
      if isHighSurrogate u || isLowSurrogate u then none else some (Char.ofNat u :: seen).reverse
  | u :: v :: rest =>
      if isHighSurrogate u then
        if isLowSurrogate v then
          joinUnits? (Char.ofNat (0x10000 + (u - 0xD800) * 0x400 + (v - 0xDC00)) :: seen) rest
        else none
      else if isLowSurrogate u then none
      else joinUnits? (Char.ofNat u :: seen) (v :: rest)

/-- The number that decimal digits write. -/
def digitsValue (digits : List Char) : Nat :=
  digits.foldl (fun n c => n * 10 + (c.toNat - '0'.toNat)) 0

/-- One or more digits, and what follows them. -/
def digits? (cs : List Char) : Option (List Char × List Char) :=
  match cs.takeWhile Char.isDigit with
  | [] => none
  | d :: ds => some (d :: ds, cs.dropWhile Char.isDigit)

/-- The integer part of a number: digits without a leading zero. -/
def whole? (cs : List Char) : Option (List Char × List Char) :=
  match digits? cs with
  | some ('0' :: _ :: _, _) => none
  | found => found

/-- An optional fraction; the flag says whether there was one. -/
def fraction? : List Char → Option (Bool × List Char)
  | '.' :: rest => (digits? rest).map fun found => (true, found.2)
  | cs => some (false, cs)

/-- What follows an optional sign. -/
def afterSign : List Char → List Char
  | '+' :: rest => rest
  | '-' :: rest => rest
  | cs => cs

/-- An optional exponent; the flag says whether there was one. -/
def exponent? : List Char → Option (Bool × List Char)
  | [] => some (false, [])
  | c :: rest =>
      if c = 'e' ∨ c = 'E' then (digits? (afterSign rest)).map fun found => (true, found.2)
      else some (false, c :: rest)

/-- A number without its sign. -/
def unsigned? (cs : List Char) : Option (Token × List Char) := do
  let (whole, cs) ← whole? cs
  let (hasFraction, cs) ← fraction? cs
  let (hasExponent, cs) ← exponent? cs
  return (if hasFraction || hasExponent then .number else .natural (digitsValue whole), cs)

/-- The first token of a text that starts with no blank. -/
def token? : List Char → Option (Token × List Char)
  | [] => none
  | '{' :: rest => some (.openBrace, rest)
  | '}' :: rest => some (.closeBrace, rest)
  | '[' :: rest => some (.openBracket, rest)
  | ']' :: rest => some (.closeBracket, rest)
  | ':' :: rest => some (.colon, rest)
  | ',' :: rest => some (.comma, rest)
  | '"' :: rest =>
      (stringUnits [] rest).map fun found =>
        (.string ((joinUnits? [] found.1).map String.ofList), found.2)
  | 'n' :: 'u' :: 'l' :: 'l' :: rest => some (.null, rest)
  | 't' :: 'r' :: 'u' :: 'e' :: rest => some (.bool true, rest)
  | 'f' :: 'a' :: 'l' :: 's' :: 'e' :: rest => some (.bool false, rest)
  | '-' :: rest => (unsigned? rest).map fun found => (.number, found.2)
  | cs => unsigned? cs

theorem stringUnits_length_lt {seen : List Nat} {cs : List Char} {found : List Nat × List Char}
    (h : stringUnits seen cs = some found) : found.2.length < cs.length := by
  fun_induction stringUnits seen cs with
  | case1 => simp at h
  | case2 => simp at h
  | case3 => rename_i ih; have := ih h; simp only [List.length_cons]; omega
  | case4 => simp at h
  | case5 => rename_i ih; have := ih h; simp only [List.length_cons]; omega
  | case6 => simp at h
  | case7 => cases h; simp
  | case8 => simp at h
  | case9 => rename_i ih; have := ih h; simp only [List.length_cons]; omega

theorem digits?_length_lt {cs : List Char} {found : List Char × List Char}
    (h : digits? cs = some found) : found.2.length < cs.length := by
  rw [digits?] at h
  split at h
  · simp at h
  · rename_i d ds heq
    cases h
    have hsplit := congrArg List.length
      (List.takeWhile_append_dropWhile (p := Char.isDigit) (l := cs))
    rw [heq, List.length_append, List.length_cons] at hsplit
    simp only
    omega

theorem whole?_length_lt {cs : List Char} {found : List Char × List Char}
    (h : whole? cs = some found) : found.2.length < cs.length := by
  rw [whole?] at h
  split at h
  · simp at h
  · exact digits?_length_lt h

theorem fraction?_length_le {cs : List Char} {found : Bool × List Char}
    (h : fraction? cs = some found) : found.2.length ≤ cs.length := by
  rw [fraction?.eq_def] at h
  split at h
  · obtain ⟨d, hd, rfl⟩ := Option.map_eq_some_iff.1 h
    have := digits?_length_lt hd
    simp only [List.length_cons]
    omega
  · cases h; exact Nat.le_refl _

theorem afterSign_length_le (cs : List Char) : (afterSign cs).length ≤ cs.length := by
  rw [afterSign.eq_def]
  split <;> simp

theorem exponent?_length_le {cs : List Char} {found : Bool × List Char}
    (h : exponent? cs = some found) : found.2.length ≤ cs.length := by
  rw [exponent?.eq_def] at h
  split at h
  · cases h; exact Nat.le_refl _
  · split at h
    · obtain ⟨d, hd, rfl⟩ := Option.map_eq_some_iff.1 h
      rename_i rest _
      have := digits?_length_lt hd
      have := afterSign_length_le rest
      simp only [List.length_cons]
      omega
    · cases h; exact Nat.le_refl _

theorem unsigned?_length_lt {cs : List Char} {found : Token × List Char}
    (h : unsigned? cs = some found) : found.2.length < cs.length := by
  simp only [unsigned?, Option.bind_eq_bind, Option.pure_def, Option.bind_eq_some_iff] at h
  obtain ⟨whole, hw, frac, hf, exp, he, hfound⟩ := h
  cases hfound
  have := whole?_length_lt hw
  have := fraction?_length_le hf
  have := exponent?_length_le he
  simp only
  omega

theorem token?_length_lt {cs : List Char} {found : Token × List Char}
    (h : token? cs = some found) : found.2.length < cs.length := by
  rw [token?.eq_def] at h
  split at h
  case h_1 => simp at h
  case h_8 =>
    obtain ⟨s, hs, rfl⟩ := Option.map_eq_some_iff.1 h
    have := stringUnits_length_lt hs
    simp only [List.length_cons]
    omega
  case h_12 =>
    obtain ⟨u, hu, rfl⟩ := Option.map_eq_some_iff.1 h
    have := unsigned?_length_lt hu
    simp only [List.length_cons]
    omega
  case h_13 => exact unsigned?_length_lt h
  all_goals
    cases h
    simp only [List.length_cons]
    omega

/-- All tokens of a text, after those already `seen` (last first). -/
def tokensFrom? (seen : List Token) (cs : List Char) : Option (List Token) :=
  match cs with
  | [] => some seen.reverse
  | c :: rest =>
      if isBlank c then tokensFrom? seen rest
      else
        match htoken : token? (c :: rest) with
        | none => none
        | some (t, following) =>
            have : following.length ≤ rest.length := Nat.le_of_lt_succ (token?_length_lt htoken)
            tokensFrom? (t :: seen) following
termination_by cs.length

/-- The tokens of a document. -/
def tokens? (text : String) : Option (List Token) := tokensFrom? [] text.toList

end Docset.Json
