import Docset.Files.System

/-!
# Patterns

A pattern is a text in which a star stands for any text, a question mark for any
character, and a list in square brackets for one of its characters. A character
that was quoted stands for itself. Patterns select branches, trim values and find
files; of files, those whose name starts with a dot are found only by a pattern
that starts with one.
-/
namespace Docset.Shell

/-- A character and whether it was quoted. -/
abbrev Glyph := Char × Bool

namespace Pattern

/-- Members of a list in brackets. -/
inductive Member where
  | range (first last : Char)
  | kind (name : String)
  deriving DecidableEq, Repr

inductive Atom where
  | exactly (c : Char)
  | any
  | stretch
  | oneOf (negated : Bool) (members : List Member)
  deriving DecidableEq, Repr

/-- The kinds of characters that a list in brackets may name. -/
def isOfKind (name : String) (c : Char) : Bool :=
  match name with
  | "alpha" => c.isAlpha
  | "digit" => c.isDigit
  | "alnum" => c.isAlphanum
  | "upper" => c.isUpper
  | "lower" => c.isLower
  | "space" => c = ' ' || ('\t' ≤ c && c ≤ '\r')
  | "blank" => c = ' ' || c = '\t'
  | "punct" => '!' ≤ c && c ≤ '~' && !c.isAlphanum
  | "print" => ' ' ≤ c && c ≤ '~'
  | "graph" => '!' ≤ c && c ≤ '~'
  | "cntrl" => c < ' ' || c = '\x7f'
  | "xdigit" => c.isDigit || ('a' ≤ c && c ≤ 'f') || ('A' ≤ c && c ≤ 'F')
  | _ => false

namespace Member

def holds (c : Char) : Member → Bool
  | range first last => first ≤ c && c ≤ last
  | kind name => isOfKind name c

end Member

/-- The name of a kind of characters, and how long its spelling is after the bracket. -/
def kindAhead? (gs : List Glyph) : Option (String × Nat) :=
  match gs with
  | (':', _) :: rest =>
      let name := rest.takeWhile fun g => g.1.isAlpha
      match rest.drop name.length with
      | (':', _) :: (']', _) :: _ => some (String.ofList (name.map (·.1)), name.length + 3)
      | _ => none
  | _ => none

/-- The members of a list in brackets, and how long the list is with its closing bracket. A bracket
that comes first is a member. The first argument counts characters that are already dealt with. -/
def members? : (skip : Nat) → (first : Bool) → List Glyph → Option (List Member × Nat)
  | _, _, [] => none
  | skip + 1, first, _ :: rest => (members? skip first rest).map fun (ms, n) => (ms, n + 1)
  | 0, first, (c, quoted) :: rest =>
      if c = ']' && !quoted && !first then some ([], 1)
      else
        let more (skip : Nat) (m : Member) : Option (List Member × Nat) :=
          (members? skip false rest).map fun (ms, n) => (m :: ms, n + 1)
        match if c = '[' && !quoted then kindAhead? rest else none with
        | some (name, n) => more n (.kind name)
        | none =>
            match rest with
            | ('-', false) :: (last, lastQuoted) :: _ =>
                if last = ']' && !lastQuoted then more 0 (.range c c) else more 2 (.range c last)
            | _ => more 0 (.range c c)

/-- The list that follows an opening bracket, and how long it is. -/
def list? (gs : List Glyph) : Option (Atom × Nat) :=
  match gs with
  | ('!', false) :: rest => (members? 0 true rest).map fun (ms, n) => (.oneOf true ms, n + 1)
  | _ => (members? 0 true gs).map fun (ms, n) => (.oneOf false ms, n)

/-- What a pattern asks for, piece by piece. The first argument counts characters that are already
dealt with. -/
def atoms : (skip : Nat) → List Glyph → List Atom
  | _, [] => []
  | skip + 1, _ :: rest => atoms skip rest
  | 0, (c, quoted) :: rest =>
      if quoted then .exactly c :: atoms 0 rest
      else if c = '*' then .stretch :: atoms 0 rest
      else if c = '?' then .any :: atoms 0 rest
      else if c = '[' then
        match list? rest with
        | some (atom, n) => atom :: atoms n rest
        | none => .exactly c :: atoms 0 rest
      else .exactly c :: atoms 0 rest

/-- A text and its ends, the longest first. -/
def ends (cs : List Char) : List (List Char) :=
  match cs with
  | [] => [[]]
  | c :: rest => (c :: rest) :: ends rest

def accepts : List Atom → List Char → Bool
  | [], cs => cs.isEmpty
  | .stretch :: more, cs => (ends cs).any (accepts more)
  | .exactly d :: more, c :: cs => c = d && accepts more cs
  | .any :: more, _ :: cs => accepts more cs
  | .oneOf negated ms :: more, c :: cs => (ms.any (·.holds c)) ≠ negated && accepts more cs
  | _ :: _, [] => false

/-- Whether a pattern matches a whole text. -/
def isMatch (gs : List Glyph) (s : String) : Bool := accepts (atoms 0 gs) s.toList

/-- How many characters a pattern can take away from the end of a text. -/
def endMatches (gs : List Glyph) (cs : List Char) : List Nat :=
  (List.range (cs.length + 1)).filter fun n => accepts (atoms 0 gs) (cs.drop (cs.length - n))

/-- How many characters a pattern can take away from the start of a text. -/
def startMatches (gs : List Glyph) (cs : List Char) : List Nat :=
  (List.range (cs.length + 1)).filter fun n => accepts (atoms 0 gs) (cs.take n)

/-- A text without the shortest or longest start or end that a pattern matches. -/
def trim (atEnd longest : Bool) (gs : List Glyph) (s : String) : String :=
  let cs := s.toList
  let found := if atEnd then endMatches gs cs else startMatches gs cs
  match if longest then found.getLast? else found.head? with
  | some n => String.ofList (if atEnd then cs.take (cs.length - n) else cs.drop n)
  | none => s

/-! ## Files -/

/-- Whether a text has anything in it that makes it a pattern. -/
def isActive (gs : List Glyph) : Bool :=
  gs.any fun (c, quoted) => !quoted && (c = '*' || c = '?' || c = '[')

def text (gs : List Glyph) : String := String.ofList (gs.map (·.1))

/-- Cuts a pattern at slashes. -/
def pieces : List Glyph → List (List Glyph)
  | [] => [[]]
  | (c, quoted) :: rest =>
      if c = '/' then [] :: pieces rest
      else
        match pieces rest with
        | first :: others => ((c, quoted) :: first) :: others
        | [] => [[(c, quoted)]]

/-- The names in a folder, those that stand for itself and the folder around it included. -/
def names (fs : FileSystem) (dir : String) : List String :=
  match fs.stat ⟨if dir = "" then "." else dir⟩ with
  | .ok (place, .folder) => "." :: ".." :: (fs.children place).map (·.1)
  | _ => []

/-- Whether a name matches a piece of a pattern. -/
def nameMatches (gs : List Glyph) (name : String) : Bool :=
  isMatch gs name && (name.toList.head? ≠ some '.' || gs.head?.map (·.1) = some '.')

/-- The paths that match the pieces of a pattern, behind what is already known of them. -/
def paths (fs : FileSystem) (known : String) : List (List Glyph) → List String
  | [] => []
  | [last] =>
      if isActive last then ((names fs known).filter (nameMatches last)).map (known ++ ·)
      else
        let path := known ++ text last
        if (fs.lstat ⟨path⟩).toOption.isSome then [path] else []
  | piece :: more =>
      if isActive piece then
        ((names fs known).filter fun name =>
          nameMatches piece name && fs.isFolder ⟨known ++ name⟩).flatMap fun name =>
            paths fs (known ++ name ++ "/") more
      else paths fs (known ++ text piece ++ "/") more

/-- The files that a pattern matches, sorted; the pattern itself if there are none. -/
def files (fs : FileSystem) (gs : List Glyph) : List String :=
  if isActive gs then
    match paths fs "" (pieces gs) with
    | [] => [text gs]
    | found => found.mergeSort (· ≤ ·)
  else [text gs]

end Pattern

end Docset.Shell
