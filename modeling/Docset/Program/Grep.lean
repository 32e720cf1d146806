import Docset.Program.Expression
import Docset.Program.Names

/-!
# Finding lines

The program `grep` writes the lines of files in which an expression occurs. With
several files, each line is preceded by the name of its file.
-/
namespace Docset.Program.Grep

/-- What is looked for, and how. -/
structure Search where
  expression : Expression
  options : Options
  /-- Lines are preceded by file names. -/
  named : Bool

def usage (c : Call) : Outcome :=
  (c.begin.warn "Usage: grep [OPTION]... PATTERNS [FILE]...").fail 2
    ("Try '" ++ c.name ++ " --help' for more information.")

/-- The expression for one line of a pattern. -/
def ofLine (o : Options) (line : List Char) : Except String Expression := do
  let e ← if o.has 'F' then .ok (Expression.literally line) else Expression.parse (o.has 'E') line
  let e := if o.has 'w' then .both (.edge true) (.both e (.edge true)) else e
  return if o.has 'x' then .both .start (.both (.group 9 e) .stop) else e

/-- The expression for a pattern, each line of which is an alternative. -/
def ofPatterns (o : Options) (patterns : List String) : Except String Expression := do
  let es ← (patterns.flatMap fun p => Text.split (· = '\n') (textChars p)).mapM (ofLine o)
  match es.reverse with
  | [] => .error "no pattern"
  | last :: before => return before.foldl (fun e f => .either f e) last

namespace Search

def isSelected (s : Search) (line : List Char) : Bool :=
  s.expression.isIn (s.options.has 'i' || s.options.has 'y') line ≠ s.options.has 'v'

/-- The matches in a line that are not empty. -/
def hits (s : Search) (line : Array Char) : Nat → Nat → List (List Char)
  | 0, _ => []
  | fuel + 1, position =>
      match s.expression.find? (s.options.has 'i') line position with
      | none => []
      | some (start, w) =>
          if w.position = start then s.hits line fuel (start + 1)
          else (line.extract start w.position).toList :: s.hits line fuel w.position

/-- What is written about a selected line. -/
def shown (s : Search) (name : String) (number : Nat) (line : List Char) : List (List Char) :=
  let start := (if s.named then textChars name ++ [':'] else []) ++
    if s.options.has 'n' then (toString number).toList ++ [':'] else []
  if s.options.has 'o' then
    (s.hits line.toArray (line.length + 1) 0).map (start ++ ·)
  else [start ++ line]

/-- What is written about a file, and whether a line of it was selected. -/
def report (s : Search) (name : String) (bytes : ByteArray) : ByteArray × Bool :=
  let numbered := (lines bytes).zipIdx.filter fun p => s.isSelected p.1
  let kept :=
    match (s.options.value? 'm').bind natural? with
    | some n => numbered.take n
    | none => numbered
  let found := !kept.isEmpty
  let named (text : String) : ByteArray :=
    ((if s.named then name ++ ":" else "") ++ text ++ "\n").toUTF8
  let output :=
    if s.options.has 'q' then .empty
    else if s.options.has 'l' then if found then (name ++ "\n").toUTF8 else .empty
    else if s.options.has 'L' then if found then .empty else (name ++ "\n").toUTF8
    else if s.options.has 'c' then named (toString kept.length)
    else unlines (kept.flatMap fun (line, i) => s.shown name (i + 1) line)
  (output, found)

end Search

/-- The files below a folder. -/
def filesBelow (fs : FileSystem) : Nat → String → List String
  | 0, _ => []
  | depth + 1, path =>
      match fs.stat ⟨path⟩ with
      | .ok (place, .folder) =>
          (sortNames ((fs.children place).map (·.1))).flatMap fun name =>
            filesBelow fs depth (inside path name)
      | _ => [path]

/-- Looks through files; whether a line was selected is told by the flag. -/
def lookThrough (c : Call) (s : Search) : Outcome → Bool → List String → Outcome × Bool
  | out, found, [] => (out, found)
  | out, found, operand :: rest =>
      match c.contents operand with
      | .ok bytes =>
          let name := if operand = "-" then "(standard input)" else operand
          let (output, here) := s.report name bytes
          lookThrough c s (out.sayBytes output) (found || here) rest
      | .error e =>
          let out := if s.options.has 's' then { out with status := 2 }
            else out.fail 2 (c.name ++ ": " ++ operand ++ ": " ++ e.reason)
          lookThrough c s out found rest

/-- The program of that name; `letters` are options that it is started with. -/
def run (letters : List Char) : Program := fun c =>
  match readOptions c "vinclLqsowxEFGHhrRaySz".toList "efmABC".toList {} c.args with
  | .error _ => usage c
  | .ok o =>
      let o := { o with flags := letters ++ o.flags }
      let given := (o.values.filter (·.1 = 'e')).map (·.2)
      match given.reverse, o.operands with
      | [], [] => usage c
      | given, operands =>
          let (patterns, files) :=
            if given.isEmpty then (operands.take 1, operands.drop 1) else (given, operands)
          match ofPatterns o patterns with
          | .error message => c.begin.fail 2 (c.name ++ ": " ++ message)
          | .ok expression =>
              let deep := o.has 'r' || o.has 'R'
              let files := if !files.isEmpty then files else if deep then ["."] else ["-"]
              let all := if deep then files.flatMap (filesBelow c.files 4096) else files
              let named := (1 < files.length || deep || o.has 'H') && !o.has 'h'
              let (out, found) := lookThrough c ⟨expression, o, named⟩ c.begin false all
              let status := if found && (out.status = 0 || o.has 'q') then 0
                else if out.status = 0 then 1 else out.status
              { out with status, consumed := if all.contains "-" then c.input.size else 0 }

end Docset.Program.Grep
