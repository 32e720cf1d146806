import Docset.Config.Store
import Docset.Text.Alphanumeric
import Docset.Text.Words

/-!
# Environment files

A file named `.env` in the current folder, or in the nearest folder around it that
has one, adds variables to the environment. Variables that are already there are
kept. A line sets one variable; quotes may make it span several lines. The first
line that cannot be read ends the file, and what came before it stays in force. A
value that no variable can hold is a fault.

Values may be quoted. Inside double quotes and outside all quotes a backslash keeps
the next character, and a dollar sign refers to a variable that is set by then;
its name, if not in braces, has letters and digits only.
-/
namespace Docset.Cli.EnvFile

/-- Where the environment file of a folder would be. -/
def candidate (place : Location) : Path := place.path.join ⟨".env"⟩

/-- The environment file that counts in a folder: its own, or the nearest one around it. -/
def find? (fs : FileSystem) : Location → Option Path
  | [] => if fs.isFile (candidate []) then some (candidate []) else none
  | name :: around =>
      match fs.stat (candidate (name :: around)) with
      | .ok (_, .file _ _) => some (candidate (name :: around))
      | .ok _ => find? fs around
      | .error .notFound => find? fs around
      | .error _ => none

/-! ## Lines -/

/-- Cuts bytes after each line break; `line` holds the line at hand, last byte first. -/
def cutLines (line : List UInt8) : List UInt8 → List (List UInt8)
  | [] => if line.isEmpty then [] else [line.reverse]
  | b :: rest =>
      if b = 10 then (b :: line).reverse :: cutLines [] rest else cutLines (b :: line) rest

/-- The lines of a file with their line breaks, each of them if it is text. A byte order mark at
the start is dropped. -/
def physicalLines (bytes : ByteArray) : List (Option String) :=
  let content :=
    match bytes.toList with
    | 0xEF :: 0xBB :: 0xBF :: rest => rest
    | all => all
  (cutLines [] content).map fun line => String.fromUTF8? ⟨line.toArray⟩

/-- Where in a line the reading stands. -/
inductive Mood where
  | complete
  | escape
  | strong
  | strongEscape
  | weak
  | weakEscape
  | blank
  deriving DecidableEq, Repr

/-- The mood after a character outside quotes. -/
def Mood.outside (c : Char) : Mood :=
  if c = '\\' then .escape
  else if c = '"' then .weak
  else if c = '\'' then .strong
  else .complete

def Mood.next (m : Mood) (c : Char) : Mood :=
  match m with
  | .blank => .outside c
  | .escape => .complete
  | .complete =>
      if Text.isWhiteSpace c && c ≠ '\n' && c ≠ '\r' then .blank else .outside c
  | .weak => if c = '\\' then .weakEscape else if c = '"' then .complete else .weak
  | .weakEscape => .weak
  | .strong => if c = '\\' then .strongEscape else if c = '\'' then .complete else .strong
  | .strongEscape => .strong

/-- The mood at the end of a line, or what stands before a comment in it. -/
def scanLine (m : Mood) (seen : List Char) : List Char → Mood ⊕ List Char
  | [] => .inl m
  | c :: rest =>
      if m = .blank ∧ c = '#' then .inr seen.reverse else scanLine (m.next c) (c :: seen) rest

/-- A line without its line break. -/
def dropLineBreak (line : List Char) : List Char :=
  match line.reverse with
  | '\n' :: '\r' :: rest => rest.reverse
  | '\n' :: rest => rest.reverse
  | _ => line

/-- Joins lines while quotes are open; `begun` is the line at hand, last character first. Only where
a line begins can it be a comment as a whole. The last item is `none` if the file cannot be read to
its end. -/
def logicalLines (m : Mood) (begun : List Char) : List (Option String) → List (Option (List Char))
  | [] => if m = .complete then [] else [none]
  | none :: _ => [none]
  | some line :: rest =>
      let chars := line.toList
      if begun.isEmpty && (chars.dropWhile Text.isWhiteSpace).head? = some '#' then
        some [] :: logicalLines .complete [] rest
      else
        match scanLine m [] chars with
        | .inr kept => some (begun.reverse ++ kept) :: logicalLines .complete [] rest
        | .inl m =>
            let joined := chars.reverse ++ begun
            if m = .complete then
              some (dropLineBreak joined.reverse) :: logicalLines .complete [] rest
            else logicalLines m joined rest

/-! ## Values -/

/-- The reference to a variable that is being read. -/
inductive Reference where
  | bare (name : List Char)
  | braced (name : List Char)
  deriving DecidableEq, Repr

/-- What has been read of a value; texts are kept last character first. -/
structure Value where
  out : List Char := []
  strong : Bool := false
  weak : Bool := false
  escaped : Bool := false
  /-- Blanks were seen, so only a comment may follow. -/
  ended : Bool := false
  reference : Option Reference := none

namespace Value

def add (v : Value) (c : Char) : Value := { v with out := c :: v.out }

def valueOf (env : Environment) (name : List Char) : List Char :=
  ((env.get? (String.ofList name.reverse)).getD "").toList

/-- Puts in the value of a variable. -/
def refer (v : Value) (env : Environment) (name : List Char) : Value :=
  { v with out := (valueOf env name).reverse ++ v.out, reference := none }

/-- One character further, inside a reference. -/
def stepReference (v : Value) (env : Environment) (c : Char) : Reference → Value
  | .bare name =>
      if Text.isAlphanumeric c then { v with reference := some (.bare (c :: name)) }
      else if c = '{' && name.isEmpty then { v with reference := some (.braced []) }
      else if c = '$' then { v.refer env name with reference := some (.bare []) }
      else (v.refer env name).add c
  | .braced name =>
      if Text.isAlphanumeric c || c ≠ '}' then { v with reference := some (.braced (c :: name)) }
      else v.refer env name

/-- One character further; `none` if it cannot stand there. -/
def step? (v : Value) (env : Environment) (c : Char) : Option Value :=
  if v.escaped then
    if c = '\\' ∨ c = '\'' ∨ c = '"' ∨ c = '$' ∨ c = ' ' then
      some { v.add c with escaped := false }
    else if c = 'n' then some { v.add '\n' with escaped := false }
    else none
  else if v.strong then some (if c = '\'' then { v with strong := false } else v.add c)
  else
    match v.reference with
    | some r => some (v.stepReference env c r)
    | none =>
        if c = '$' then some { v with reference := some (.bare []) }
        else if c = '\\' then some { v with escaped := true }
        else if v.weak then some (if c = '"' then { v with weak := false } else v.add c)
        else if c = '\'' then some { v with strong := true }
        else if c = '"' then some { v with weak := true }
        else if c = ' ' ∨ c = '\t' then some { v with ended := true }
        else some (v.add c)

/-- The finished value; `none` if a quote or a brace is still open. -/
def finish? (v : Value) (env : Environment) : Option String :=
  if v.strong || v.weak then none
  else
    match v.reference with
    | some (.braced _) => none
    | some (.bare name) => some (String.ofList (v.refer env name).out.reverse)
    | none => some (String.ofList v.out.reverse)

def read? (env : Environment) (v : Value) : List Char → Option String
  | [] => v.finish? env
  | c :: rest =>
      if v.ended then
        if c = ' ' ∨ c = '\t' then read? env v rest
        else if c = '#' then v.finish? env
        else none
      else
        match v.step? env c with
        | some v => read? env v rest
        | none => none

end Value

/-! ## Assignments -/

def isKeyChar (c : Char) : Bool := c.isAlphanum || c = '_' || c = '.'

def dropBlanks (cs : List Char) : List Char := cs.dropWhile Text.isWhiteSpace

/-- The name of a variable and what follows it and blanks. -/
def key? (cs : List Char) : Option (String × List Char) :=
  match cs with
  | c :: _ =>
      if c.isAlpha || c = '_' then
        some (String.ofList (cs.takeWhile isKeyChar), dropBlanks (cs.dropWhile isKeyChar))
      else none
  | [] => none

/-- The value that follows an equals sign. -/
def assigned? (env : Environment) : List Char → Option String
  | '=' :: rest =>
      match dropBlanks rest with
      | [] => some ""
      | '#' :: _ => some ""
      | value => Value.read? env {} value
  | _ => none

/-- The variable that a line sets, if it sets one; `none` if it cannot be read. -/
def readLine? (env : Environment) (line : List Char) : Option (Option (String × String)) :=
  match dropBlanks (Text.trim line) with
  | [] => some none
  | '#' :: _ => some none
  | cs => do
      let (key, rest) ← key? cs
      if key = "export" && rest.head? ≠ some '=' then
        let (key, rest) ← key? rest
        return some (key, ← assigned? env rest)
      else return some (key, ← assigned? env rest)

/-- Sets a variable, unless there is one of that name. The value cannot contain the character that
ends system strings. -/
def set? (env : Environment) (key value : String) : Option Environment :=
  if (env.get? key).isNone && value.toList.contains '\x00' then none
  else some (env.setDefault key value)

/-- Adds the variables of lines to an environment, up to the first that cannot be read; `none` if
one of them cannot be set. -/
def addLines? (env : Environment) : List (Option (List Char)) → Option Environment
  | [] => some env
  | none :: _ => some env
  | some line :: rest =>
      match readLine? env line with
      | none => some env
      | some none => addLines? env rest
      | some (some (key, value)) => (set? env key value).bind (addLines? · rest)

/-- The environment with what the environment file adds. -/
def load? (env : Environment) (fs : FileSystem) : Option Environment :=
  match find? fs fs.here with
  | none => some env
  | some file =>
      match fs.read file with
      | .ok bytes => addLines? env (logicalLines .complete [] (physicalLines bytes))
      | .error _ => some env

end Docset.Cli.EnvFile
