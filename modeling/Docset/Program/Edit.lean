import Docset.Program.Expression
import Docset.Program.Quoting

/-!
# Editing lines

The program `sed` goes through its input line by line and carries out the commands of
a script on each line that their addresses select. What has become of the line is
written at the end.
-/
namespace Docset.Program.Edit

/-- A line, or a kind of lines. -/
inductive Address where
  | line (n : Nat)
  | last
  | matching (e : Expression) (ignoreCase : Bool)

/-- The lines that a command is for. -/
structure Scope where
  first : Option Address := none
  second : Option Address := none
  negated : Bool := false

/-- A piece of what a match is replaced by. -/
inductive Piece where
  | text (c : Char)
  | group (n : Nat)

structure Substitution where
  expression : Expression
  replacement : List Piece
  /-- The first match that is replaced. -/
  number : Nat := 1
  all : Bool := false
  prints : Bool := false
  ignoreCase : Bool := false

/-- What a command does. -/
inductive Action where
  | substitute (s : Substitution)
  | transliterate (old new : List Char)
  | print
  | delete
  | quit (printing : Bool)
  | number
  | append (text : List Char)
  | insert (text : List Char)
  | change (text : List Char)
  | next
  | keep (adding : Bool)
  | recall (adding : Bool)
  | swap
  /-- Skips so many commands unless the address selects the line. -/
  | block (size : Nat)

structure Command where
  scope : Scope
  action : Action

/-! ## Scripts -/

/-- What is wrong with a script, and how many characters are left where it was noticed. -/
structure Mistake where
  message : String
  rest : Nat

/-- The text up to a delimiter. A delimiter after a backslash belongs to it. -/
def delimited (delimiter : Char) : List Char → Option (List Char × List Char)
  | [] => none
  | '\\' :: c :: rest =>
      (delimited delimiter rest).map fun (text, after) =>
        if c = delimiter then (c :: text, after) else ('\\' :: c :: text, after)
  | c :: rest =>
      if c = delimiter then some ([], rest)
      else (delimited delimiter rest).map fun (text, after) => (c :: text, after)

def skipBlanks (cs : List Char) : List Char := cs.dropWhile fun c => c = ' ' || c = '\t'

def expression (extended : Bool) (text : List Char) (rest : List Char) :
    Except Mistake Expression :=
  (Expression.parse extended text).mapError fun m => ⟨m, rest.length⟩

def address? (extended : Bool) (cs : List Char) : Except Mistake (Option Address × List Char) :=
  match cs with
  | '$' :: rest => .ok (some .last, rest)
  | '/' :: rest =>
      match delimited '/' rest with
      | some (text, rest) => do
          let ignoreCase := rest.head? = some 'I'
          let rest := if ignoreCase then rest.drop 1 else rest
          return (some (.matching (← expression extended text rest) ignoreCase), rest)
      | none => .error ⟨"unterminated address regex", 0⟩
  | cs =>
      let digits := cs.takeWhile Char.isDigit
      match natural? (String.ofList digits) with
      | some n => .ok (some (.line n), cs.drop digits.length)
      | none => .ok (none, cs)

def scope (extended : Bool) (cs : List Char) : Except Mistake (Scope × List Char) := do
  let (first, rest) ← address? extended (cs.dropWhile fun c => c = ' ' || c = '\n' || c = ';')
  let rest := skipBlanks rest
  let (second, rest) ←
    match first, rest with
    | some _, ',' :: rest => do
        let (second, after) ← address? extended (skipBlanks rest)
        if second.isNone then .error ⟨"unexpected \x60,'", after.length⟩
        pure (second, skipBlanks after)
    | _, rest => pure (none, rest)
  let negated := rest.head? = some '!'
  return ({ first, second, negated }, skipBlanks (if negated then rest.drop 1 else rest))

/-- The pieces of a replacement. -/
def pieces : List Char → List Piece
  | [] => []
  | '&' :: rest => .group 0 :: pieces rest
  | '\\' :: c :: rest =>
      (if c.isDigit then .group (c.toNat - '0'.toNat)
        else if c = 'n' then .text '\n'
        else if c = 't' then .text '\t'
        else .text c) :: pieces rest
  | c :: rest => .text c :: pieces rest

/-- The letters after a substitution. -/
def substitutionFlags (s : Substitution) :
    List Char → Except Mistake (Substitution × List Char)
  | 'g' :: rest => substitutionFlags { s with all := true } rest
  | 'p' :: rest => substitutionFlags { s with prints := true } rest
  | 'i' :: rest => substitutionFlags { s with ignoreCase := true } rest
  | 'I' :: rest => substitutionFlags { s with ignoreCase := true } rest
  | c :: rest =>
      if c.isDigit then substitutionFlags { s with number := c.toNat - '0'.toNat } rest
      else if " ;\n\x7d#".toList.contains c then .ok (s, c :: rest)
      else .error ⟨"unknown option to \x60s'", rest.length⟩
  | [] => .ok (s, [])

def substitution (extended : Bool) (cs : List Char) : Except Mistake (Action × List Char) := do
  let unterminated : Mistake := ⟨"unterminated \x60s' command", 0⟩
  match cs with
  | [] => throw unterminated
  | delimiter :: rest =>
      let some (old, rest) := delimited delimiter rest | throw unterminated
      let some (new, rest) := delimited delimiter rest | throw unterminated
      let e ← expression extended old rest
      let (s, rest) ← substitutionFlags { expression := e, replacement := pieces new } rest
      return (.substitute s, rest)

def transliteration (cs : List Char) : Except Mistake (Action × List Char) := do
  let unterminated : Mistake := ⟨"unterminated \x60y' command", 0⟩
  match cs with
  | [] => throw unterminated
  | delimiter :: rest =>
      let some (old, rest) := delimited delimiter rest | throw unterminated
      let some (new, rest) := delimited delimiter rest | throw unterminated
      if old.length ≠ new.length then
        throw ⟨"strings for \x60y' command are different lengths", rest.length⟩
      return (.transliterate old new, rest)

/-- The text of a command that adds lines: up to the end of the line, backslashes taken away. -/
def addedText (cs : List Char) : List Char × List Char :=
  let rest := skipBlanks cs
  let rest := if ['\\', '\n'].isPrefixOf rest then rest.drop 2
    else if rest.head? = some '\\' then rest.drop 1 else rest
  go rest
where
  go : List Char → List Char × List Char
    | [] => ([], [])
    | '\\' :: c :: rest => let (text, after) := go rest; (c :: text, after)
    | c :: rest =>
        if c = '\n' then ([], c :: rest) else let (text, after) := go rest; (c :: text, after)

/-- What a command that adds lines does. -/
def adding (action : List Char → Action) (cs : List Char) : Except Mistake (Action × List Char) :=
  let (text, rest) := addedText cs
  if text.isEmpty then .error ⟨"expected \\ after \x60a', \x60c' or \x60i'", rest.length⟩
  else .ok (action text, rest)

def action (extended : Bool) (c : Char) (rest : List Char) : Except Mistake (Action × List Char) :=
  match c with
  | 's' => substitution extended rest
  | 'y' => transliteration rest
  | 'a' => adding .append rest
  | 'i' => adding .insert rest
  | 'c' => adding .change rest
  | 'p' => .ok (.print, rest)
  | 'd' => .ok (.delete, rest)
  | 'q' => .ok (.quit true, rest.dropWhile Char.isDigit)
  | 'Q' => .ok (.quit false, rest.dropWhile Char.isDigit)
  | '=' => .ok (.number, rest)
  | 'n' => .ok (.next, rest)
  | 'h' => .ok (.keep false, rest)
  | 'H' => .ok (.keep true, rest)
  | 'g' => .ok (.recall false, rest)
  | 'G' => .ok (.recall true, rest)
  | 'x' => .ok (.swap, rest)
  | _ => .error ⟨"unknown command: \x60" ++ c.toString ++ "'", rest.length⟩

/-- The commands of a script up to the end of a block, and what follows. -/
def commands (extended : Bool) :
    Nat → (nested : Bool) → List Char → Except Mistake (List Command × List Char)
  | 0, _, cs => .ok ([], cs)
  | fuel + 1, nested, cs =>
      match cs.dropWhile fun c => c = ' ' || c = '\t' || c = '\n' || c = ';' with
      | [] => if nested then .error ⟨"unmatched \x60\x7b'", 0⟩ else .ok ([], [])
      | '#' :: rest => commands extended fuel nested (rest.dropWhile (· ≠ '\n'))
      | '\x7d' :: rest =>
          if nested then .ok ([], rest) else .error ⟨"unexpected \x60\x7d'", rest.length⟩
      | cs => do
          let (scope, rest) ← scope extended cs
          match rest with
          | [] => throw ⟨"missing command", 0⟩
          | '\x7b' :: rest =>
              let (inner, rest) ← commands extended fuel true rest
              let (more, rest) ← commands extended fuel nested rest
              return (⟨scope, .block inner.length⟩ :: inner ++ more, rest)
          | c :: rest =>
              let (action, rest) ← action extended c rest
              let after := skipBlanks rest
              if !(after.isEmpty || "\n;\x7d#".toList.contains (after.headD ' ')) then
                throw ⟨"extra characters after command", after.length - 1⟩
              let (more, rest) ← commands extended fuel nested after
              return (⟨scope, action⟩ :: more, rest)

/-! ## Lines -/

/-- Where the editing stands. -/
structure Stand where
  line : List Char := []
  held : List Char := []
  number : Nat := 0
  rest : List (List Char)
  /-- What was written, the latest first. -/
  written : List (List Char) := []
  appended : List (List Char) := []
  /-- The ranges that have begun and not ended. -/
  active : List Nat := []

namespace Stand

def write (s : Stand) (line : List Char) : Stand := { s with written := line :: s.written }

def isAt (s : Stand) : Address → Bool
  | .line n => s.number = n
  | .last => s.rest.isEmpty
  | .matching e ignoreCase => e.isIn ignoreCase s.line

/-- Whether a range that has begun ends at this line. -/
def endsAt (s : Stand) : Address → Bool
  | .line n => n ≤ s.number
  | a => s.isAt a

/-- Whether a scope selects the line; the number is that of the command. -/
def selects (s : Stand) (index : Nat) (scope : Scope) : Bool × Stand :=
  let (selected, s) :=
    match scope.first, scope.second with
    | none, _ => (true, s)
    | some a, none => (s.isAt a, s)
    | some a, some b =>
        if s.active.contains index then
          (true, if s.endsAt b then { s with active := s.active.filter (· ≠ index) } else s)
        else if s.isAt a then
          let isPast : Bool :=
            match b with
            | .line n => n ≤ s.number
            | .last => s.rest.isEmpty
            | _ => false
          (true, if isPast then s else { s with active := index :: s.active })
        else (false, s)
  (selected ≠ scope.negated, s)

/-- Ends the work on a line. -/
def finish (s : Stand) (printing : Bool) : Stand :=
  let s := if printing then s.write s.line else s
  { s with written := s.appended ++ s.written, appended := [] }

/-- Takes the next line. -/
def take? (s : Stand) : Option Stand :=
  match s.rest with
  | [] => none
  | line :: rest => some { s with line, rest, number := s.number + 1 }

end Stand

def fillIn (text : Array Char) (start : Nat) (w : Expression.Way) : List Piece → List Char
  | [] => []
  | .text c :: rest => c :: fillIn text start w rest
  | .group n :: rest =>
      let (first, last) := if n = 0 then (start, w.position) else (w.groups.lookup n).getD (0, 0)
      (text.extract first last).toList ++ fillIn text start w rest

/-- Replaces matches from a position on; `count` matches came before. -/
def replaceFrom (s : Substitution) (text : Array Char) : Nat → Nat → Nat → List Char × Bool
  | 0, _, position => ((text.extract position text.size).toList, false)
  | fuel + 1, count, position =>
      let tail : List Char := (text.extract position text.size).toList
      match s.expression.find? s.ignoreCase text position with
      | none => (tail, false)
      | some (start, w) =>
          let before := (text.extract position start).toList
          let isEmpty := w.position = start
          let follow : List Char := if isEmpty then (text.extract start (start + 1)).toList else []
          let after := if isEmpty then start + 1 else w.position
          let done := text.size < after
          if count + 1 < s.number then
            let matched := (text.extract start w.position).toList
            let (more, changed) := if done then ([], false) else
              replaceFrom s text fuel (count + 1) after
            (before ++ matched ++ follow ++ more, changed)
          else
            let new := fillIn text start w s.replacement
            if s.all then
              let (more, _) := if done then ([], false) else
                replaceFrom s text fuel (count + 1) after
              (before ++ new ++ follow ++ more, true)
            else (before ++ new ++ (text.extract w.position text.size).toList, true)

/-- What to do after a command. -/
inductive Flow where
  | onward
  /-- The line is done, and written or not. -/
  | done (printing : Bool)
  | quit (printing : Bool)

def perform (quiet : Bool) (s : Stand) : Action → Stand × Flow
  | .substitute e =>
      let text := s.line.toArray
      let (line, changed) := replaceFrom e text (text.size + 2) 0 0
      let s := { s with line }
      (if changed && e.prints then s.write line else s, .onward)
  | .transliterate old new =>
      let swap (c : Char) : Char := ((old.zip new).lookup c).getD c
      ({ s with line := s.line.map swap }, .onward)
  | .print => (s.write s.line, .onward)
  | .delete => (s, .done false)
  | .quit printing => (s, .quit printing)
  | .number => (s.write (toString s.number).toList, .onward)
  | .append text => ({ s with appended := text :: s.appended }, .onward)
  | .insert text => (s.write text, .onward)
  | .change text => (s.write text, .done false)
  | .next =>
      let shown := if quiet then s else s.write s.line
      match shown.take? with
      | some t => (t, .onward)
      | none => (s, .quit true)
  | .keep adding =>
      ({ s with held := if adding then s.held ++ '\n' :: s.line else s.line }, .onward)
  | .recall adding =>
      ({ s with line := if adding then s.line ++ '\n' :: s.held else s.held }, .onward)
  | .swap => ({ s with line := s.held, held := s.line }, .onward)
  | .block _ => (s, .onward)

/-- Carries out commands on a line; `index` counts them. -/
def performAll (quiet : Bool) : Nat → Nat → List Command → Stand → Stand × Flow
  | _, _, [], s => (s, .done true)
  | skip + 1, index, _ :: rest, s => performAll quiet skip (index + 1) rest s
  | 0, index, c :: rest, s =>
      let (selected, s) := s.selects index c.scope
      match c.action, selected with
      | .block size, false => performAll quiet size (index + 1) rest s
      | _, false => performAll quiet 0 (index + 1) rest s
      | action, true =>
          match perform quiet s action with
          | (s, .onward) => performAll quiet 0 (index + 1) rest s
          | result => result

/-- Goes through all lines. -/
def editAll (quiet : Bool) (script : List Command) : Nat → Stand → Stand
  | 0, s => s
  | fuel + 1, s =>
      match s.take? with
      | none => s
      | some s =>
          match performAll quiet 0 0 script s with
          | (s, .quit printing) => s.finish (printing && !quiet)
          | (s, .done printing) => editAll quiet script fuel (s.finish (printing && !quiet))
          | (s, _) => editAll quiet script fuel (s.finish (!quiet))

/-- Edits a text, and tells how much of it was left alone. A last line without a line break stays
without one. -/
def edit (quiet : Bool) (script : List Command) (bytes : ByteArray) : ByteArray × Nat :=
  let ls := lines bytes
  let stand := editAll quiet script (ls.length + 1) { rest := ls }
  let out := unlines stand.written.reverse
  let unended := bytes.size ≠ 0 && (chars bytes).getLast? ≠ some '\n' && stand.rest.isEmpty
  (if unended then out.extract 0 (out.size - 1) else out, (unlines stand.rest).size)

/-- Edits a file in its place. -/
def editFile (c : Call) (quiet : Bool) (script : List Command) (out : Outcome) (operand : String) :
    Outcome :=
  match out.files.read ⟨operand⟩ with
  | .ok bytes =>
      match out.files.write ⟨operand⟩ (edit quiet script bytes).1 with
      | .ok files => { out with files }
      | .error e => out.fail 4 (c.name ++ ": couldn't edit " ++ operand ++ ": " ++ e.reason)
  | .error e => out.fail 2 (c.name ++ ": can't read " ++ operand ++ ": " ++ e.reason)

/-- The program of that name. -/
def run : Program := fun c =>
  let args := c.args.map fun s => if s = "--quiet" || s = "--silent" then "-n" else s
  match readOptions c "nEris".toList "ef".toList {} args with
  | .error out => out
  | .ok o =>
      let given := ((o.values.filter (·.1 = 'e')).map (·.2)).reverse
      let (scripts, operands) :=
        if given.isEmpty then (o.operands.take 1, o.operands.drop 1) else (given, o.operands)
      let text := textChars ("\n".intercalate scripts)
      if scripts.isEmpty then
        c.begin.fail 1
          "Usage: sed [OPTION]... \x7bscript-only-if-no-other-script\x7d [input-file]..."
      else
        match commands (o.has 'E' || o.has 'r') (text.length + 1) false text with
        | .error m =>
            c.begin.fail 1 (c.name ++ ": -e expression #1, char " ++
              toString (text.length - m.rest) ++ ": " ++ m.message)
        | .ok (script, _) =>
            if o.has 'i' then each c.begin operands (editFile c (o.has 'n') script)
            else
              let operands := if operands.isEmpty then ["-"] else operands
              let (out, input) := operands.foldl (fun (out, input) operand =>
                match c.contents operand with
                | .ok bytes => (out, input ++ bytes)
                | .error e =>
                    (out.fail 2 (c.name ++ ": can't read " ++ operand ++ ": " ++ e.reason), input))
                (c.begin, .empty)
              let (edited, left) := edit (o.has 'n') script input
              c.giveBack (c.input.size - left)
                { out.sayBytes edited with
                  consumed := if operands.contains "-" then c.input.size else 0 }

end Docset.Program.Edit
