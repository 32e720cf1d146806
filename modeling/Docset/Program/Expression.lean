import Docset.Program.Basic
import Docset.Shell.Pattern

/-!
# Regular expressions

Programs that look for text do so by regular expressions, of which there are two
spellings: in the basic one groups, alternatives and counts need a backslash, in the
extended one they do not. An expression is read into tokens first, in which the two
spellings do not differ any more.

Of the matches that start earliest the longest one counts.
-/
namespace Docset.Program

/-- A regular expression. -/
inductive Expression where
  | empty
  | any
  | oneOf (negated : Bool) (members : List Shell.Pattern.Member)
  | start
  | stop
  /-- The edge of a word, or everything but one. -/
  | edge (expected : Bool)
  | group (number : Nat) (inner : Expression)
  /-- What a group matched, once more. -/
  | again (number : Nat)
  | both (first second : Expression)
  | either (first second : Expression)
  | times (least : Nat) (most : Option Nat) (inner : Expression)
  deriving Repr

namespace Expression

open Shell.Pattern (Member)

def exactly (c : Char) : Expression := oneOf false [.range c c]

/-! ## Tokens -/

inductive Token where
  | atom (e : Expression)
  | opening
  | closing
  | bar
  | repetition (least : Nat) (most : Option Nat)
  deriving Repr

/-- The numbers of a count, and how long its spelling is before the closing brace. -/
def countAhead? (cs : List Char) : Option (Nat × Option Nat × Nat) :=
  let digits (cs : List Char) : List Char := cs.takeWhile Char.isDigit
  let number? (cs : List Char) : Option Nat := natural? (String.ofList cs)
  let first := digits cs
  match cs.drop first.length with
  | ',' :: rest =>
      let last := digits rest
      some ((number? first).getD 0, number? last, first.length + 1 + last.length)
  | _ => (number? first).map fun n => (n, some n, first.length)

/-- Characters that a letter after a backslash stands for. -/
def classOf? (c : Char) : Option (Bool × List Member) :=
  match c with
  | 'w' => some (false, [.kind "alnum", .range '_' '_'])
  | 'W' => some (true, [.kind "alnum", .range '_' '_'])
  | 's' => some (false, [.kind "space"])
  | 'S' => some (true, [.kind "space"])
  | 'n' => some (false, [.range '\n' '\n'])
  | 't' => some (false, [.range '\t' '\t'])
  | _ => none

/-- The list of characters after an opening bracket, and how long it is. -/
def listAhead? (cs : List Char) : Option (Expression × Nat) :=
  let glyphs (cs : List Char) : List Shell.Glyph := cs.map (·, false)
  match cs with
  | '^' :: rest => (Shell.Pattern.members? 0 true (glyphs rest)).map fun (ms, n) =>
      (oneOf true ms, n + 1)
  | cs => (Shell.Pattern.members? 0 true (glyphs cs)).map fun (ms, n) => (oneOf false ms, n)

/-- Whether nothing that could be repeated comes before: the start of an expression or group. -/
def isOpen : Option Token → Bool
  | none => true
  | some .opening => true
  | some .bar => true
  | some (.atom .start) => true
  | _ => false

/-- A token that is spelled with a backslash, and how many characters it takes after that. -/
def escaped (extended : Bool) (last : Option Token) (c : Char) (rest : List Char) :
    Except String (Token × Nat) :=
  let literal : Except String (Token × Nat) := .ok (.atom (exactly c), 0)
  if c.isDigit && c ≠ '0' then .ok (.atom (again (c.toNat - '0'.toNat)), 0)
  else
    match classOf? c with
    | some (negated, ms) => .ok (.atom (oneOf negated ms), 0)
    | none =>
        if c = 'b' then .ok (.atom (edge true), 0)
        else if c = 'B' then .ok (.atom (edge false), 0)
        else if c = '<' || c = '>' then .ok (.atom (edge true), 0)
        else if extended then literal
        else
          match c with
          | '(' => .ok (.opening, 0)
          | ')' => .ok (.closing, 0)
          | '|' => .ok (.bar, 0)
          | '+' => if isOpen last then literal else .ok (.repetition 1 none, 0)
          | '?' => if isOpen last then literal else .ok (.repetition 0 (some 1), 0)
          | '\x7b' =>
              match countAhead? rest with
              | some (least, most, n) =>
                  match rest.drop n with
                  | '\\' :: '\x7d' :: _ => .ok (.repetition least most, n + 2)
                  | _ => .error "Unmatched \\\x7b"
              | none => .error "Invalid preceding regular expression"
          | _ => literal

/-- Whether a dollar sign stands for the end, given what follows it. -/
def endsHere (extended : Bool) (rest : List Char) : Bool :=
  extended || rest.isEmpty || ['\\', ')'].isPrefixOf rest || ['\\', '|'].isPrefixOf rest

/-- A token that is spelled without a backslash, and how many characters it takes after its
first. -/
def unescaped (extended : Bool) (last : Option Token) (c : Char) (rest : List Char) :
    Except String (Token × Nat) :=
  let literal : Except String (Token × Nat) := .ok (.atom (exactly c), 0)
  match c with
  | '.' => .ok (.atom any, 0)
  | '[' =>
      match listAhead? rest with
      | some (e, n) => .ok (.atom e, n)
      | none => .error "Unmatched [, [^, [:, [., or [="
  | '*' => if isOpen last then literal else .ok (.repetition 0 none, 0)
  | '^' => if extended || isOpen last then .ok (.atom start, 0) else literal
  | '$' => if endsHere extended rest then .ok (.atom stop, 0) else literal
  | _ =>
      if !extended then literal
      else
        match c with
        | '(' => .ok (.opening, 0)
        | ')' => .ok (.closing, 0)
        | '|' => .ok (.bar, 0)
        | '+' => if isOpen last then literal else .ok (.repetition 1 none, 0)
        | '?' => if isOpen last then literal else .ok (.repetition 0 (some 1), 0)
        | '\x7b' =>
            match countAhead? rest with
            | some (least, most, n) =>
                match rest.drop n with
                | '\x7d' :: _ =>
                    if isOpen last then literal else .ok (.repetition least most, n + 1)
                | _ => literal
            | none => literal
        | _ => literal

/-- Reads an expression into tokens. The first number counts characters that are already dealt
with. -/
def tokens (extended : Bool) : Nat → Option Token → List Char → Except String (List Token)
  | _, _, [] => .ok []
  | skip + 1, last, _ :: rest => tokens extended skip last rest
  | 0, last, '\\' :: rest =>
      match rest with
      | [] => .error "Trailing backslash"
      | c :: more => do
          let (t, n) ← escaped extended last c more
          return t :: (← tokens extended (n + 1) (some t) rest)
  | 0, last, c :: rest => do
      let (t, n) ← unescaped extended last c rest
      return t :: (← tokens extended n (some t) rest)

/-! ## Structure -/

/-- An expression, the tokens after it, and how many groups were opened. -/
abbrev Parsed := Except String (Expression × List Token × Nat)

/-- Repeats an expression as often as the tokens after it say. -/
def repeated (e : Expression) : List Token → Expression × List Token
  | .repetition least most :: rest => repeated (times least most e) rest
  | rest => (e, rest)

mutual

def alternatives : Nat → Nat → List Token → Parsed
  | 0, _, _ => .error "Regular expression too big"
  | fuel + 1, groups, ts => do
      let (e, rest, groups) ← stretch fuel groups ts
      match rest with
      | .bar :: rest =>
          let (f, rest, groups) ← alternatives fuel groups rest
          return (either e f, rest, groups)
      | rest => return (e, rest, groups)

def stretch : Nat → Nat → List Token → Parsed
  | 0, _, _ => .error "Regular expression too big"
  | fuel + 1, groups, ts =>
      match ts with
      | .atom e :: rest => do
          let (e, rest) := repeated e rest
          let (f, rest, groups) ← stretch fuel groups rest
          return (both e f, rest, groups)
      | .opening :: rest => do
          let number := groups + 1
          let (e, rest, groups) ← alternatives fuel number rest
          match rest with
          | .closing :: rest =>
              let (e, rest) := repeated (group number e) rest
              let (f, rest, groups) ← stretch fuel groups rest
              return (both e f, rest, groups)
          | _ => .error "Unmatched ( or \\("
      | .repetition _ _ :: rest => stretch fuel groups rest
      | rest => .ok (empty, rest, groups)

end

/-- Reads an expression. -/
def parse (extended : Bool) (s : List Char) : Except String Expression := do
  let ts ← tokens extended 0 none s
  let (e, rest, _) ← alternatives (2 * ts.length + 2) 0 ts
  if rest.isEmpty then return e else .error "Unmatched ) or \\)"

/-- The expression that matches a text as it is. -/
def literally (s : List Char) : Expression := s.foldr (fun c e => both (exactly c) e) empty

/-! ## Matching -/

/-- A way to match: how far it goes, and what groups matched, as starts and ends. -/
structure Way where
  position : Nat
  groups : List (Nat × Nat × Nat) := []

/-- Letters that count as the same where case does not matter. -/
def sameLetter (ignoreCase : Bool) (a b : Char) : Bool :=
  a = b || (ignoreCase && a.toLower = b.toLower)

def holds (ignoreCase : Bool) (ms : List Member) (c : Char) : Bool :=
  ms.any (·.holds c) ||
    (ignoreCase && ms.any fun m => m.holds c.toLower || m.holds c.toUpper)

def isWordChar (c : Char) : Bool := c.isAlphanum || c = '_'

/-- Whether a word starts or ends at a position. -/
def atEdge (text : Array Char) (position : Nat) : Bool :=
  let before := position ≠ 0 && (text[position - 1]?).any isWordChar
  before ≠ (text[position]?).any isWordChar

/-- Takes steps as often as is allowed, more often first. -/
def iterate (step : Way → List Way) : Nat → Nat → Option Nat → Way → List Way
  | 0, _, _, w => [w]
  | fuel + 1, least, most, w =>
      let here := if least = 0 then [w] else []
      if most = some 0 then here
      else
        (step w).flatMap (fun v =>
          if v.position = w.position && least = 0 then []
          else iterate step fuel (least - 1) (most.map (· - 1)) v) ++ here

/-- All ways to match an expression from where a way ends. -/
def ways (ignoreCase : Bool) (text : Array Char) : Expression → Way → List Way
  | .empty, w => [w]
  | .any, w => if w.position < text.size then [{ w with position := w.position + 1 }] else []
  | .oneOf negated ms, w =>
      match text[w.position]? with
      | some c =>
          if holds ignoreCase ms c ≠ negated then [{ w with position := w.position + 1 }] else []
      | none => []
  | .start, w => if w.position = 0 then [w] else []
  | .stop, w => if w.position = text.size then [w] else []
  | .edge expected, w => if atEdge text w.position = expected then [w] else []
  | .group n e, w =>
      (ways ignoreCase text e w).map fun v =>
        { v with groups := (n, w.position, v.position) :: v.groups.filter (·.1 ≠ n) }
  | .again n, w =>
      match w.groups.lookup n with
      | some (first, last) =>
          let wanted := (text.extract first last).toList
          let found := (text.extract w.position (w.position + wanted.length)).toList
          if found.length = wanted.length &&
              (found.zip wanted).all fun p => sameLetter ignoreCase p.1 p.2 then
            [{ w with position := w.position + wanted.length }]
          else []
      | none => []
  | .both a b, w => (ways ignoreCase text a w).flatMap (ways ignoreCase text b)
  | .either a b, w => ways ignoreCase text a w ++ ways ignoreCase text b w
  | .times least most e, w =>
      iterate (ways ignoreCase text e) (text.size + least + 2) least most w

/-- The longest of some ways, the first of those that are equally long. -/
def longest? : List Way → Option Way
  | [] => none
  | w :: rest =>
      match longest? rest with
      | some v => if w.position < v.position then some v else some w
      | none => some w

/-- The first match from a position on: where it starts, and the way it takes. -/
def findFrom (ignoreCase : Bool) (e : Expression) (text : Array Char) :
    Nat → Nat → Option (Nat × Way)
  | 0, _ => none
  | fuel + 1, position =>
      match longest? (ways ignoreCase text e { position }) with
      | some w => some (position, w)
      | none => findFrom ignoreCase e text fuel (position + 1)

/-- The first match that starts no earlier than a position. -/
def find? (ignoreCase : Bool) (e : Expression) (text : Array Char) (position : Nat) :
    Option (Nat × Way) :=
  findFrom ignoreCase e text (text.size + 1 - position) position

def isIn (ignoreCase : Bool) (e : Expression) (text : List Char) : Bool :=
  (e.find? ignoreCase text.toArray 0).isSome

end Expression

end Docset.Program
