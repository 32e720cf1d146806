import Docset.Shell.Arithmetic
import Docset.Shell.Pattern
import Docset.Shell.State

/-!
# Expansion

What words stand for when a script runs. References are replaced first, which gives
fragments of text. Text that came from a reference outside quotes is then divided
at separators; everything that was not quoted may be a pattern for files.

How the output of commands is obtained is left open here: it is the argument
`outputOf`.
-/
namespace Docset.Shell

/-- A piece of an expanded word. -/
inductive Fragment where
  /-- Text of the script. -/
  | plain (s : String)
  /-- Text that stands for itself. -/
  | quoted (s : String)
  /-- Text that came from a reference outside quotes. -/
  | loose (s : String)
  /-- The end of one of several fields. -/
  | border
  deriving DecidableEq, Repr

namespace Fragment

def text : Fragment → String
  | plain s => s
  | quoted s => s
  | loose s => s
  | border => " "

def glyphs : Fragment → List Glyph
  | quoted s => s.toList.map (·, true)
  | f => f.text.toList.map (·, false)

/-- Text of the script that stands for the value of a reference. -/
def loosen : Fragment → Fragment
  | plain s => loose s
  | f => f

end Fragment

/-! ## Fields -/

/-- Fields that are being put together; texts are kept last character first. -/
structure Fields where
  finished : List (List Glyph) := []
  current : Option (List Glyph) := none
  /-- The latest field was ended by white space. -/
  ended : Bool := false

namespace Fields

def add (fs : Fields) (gs : List Glyph) : Fields :=
  { fs with current := some (gs.reverse ++ fs.current.getD []), ended := false }

/-- Ends the field at hand, if there is one. -/
def close (fs : Fields) : Fields :=
  match fs.current with
  | some gs => { fs with finished := gs :: fs.finished, current := none }
  | none => fs

/-- One character of a value that is divided at separators. White space around another separator
belongs to it. -/
def divide (separators : List Char) (fs : Fields) (c : Char) : Fields :=
  if !separators.contains c then fs.add [(c, false)]
  else if c = ' ' || c = '\t' || c = '\n' then
    if fs.current.isSome then { fs.close with ended := true } else fs
  else if fs.current.isSome then { fs.close with ended := false }
  else if fs.ended then { fs with ended := false }
  else { fs with finished := [] :: fs.finished }

def addFragment (separators : List Char) (fs : Fields) : Fragment → Fields
  | .plain s => fs.add (Fragment.plain s).glyphs
  | .quoted s => fs.add (Fragment.quoted s).glyphs
  | .loose s => s.toList.foldl (divide separators) fs
  | .border => fs.close

def ofFragments (separators : List Char) (fragments : List Fragment) : List (List Glyph) :=
  ((fragments.foldl (addFragment separators) {}).close.finished.reverse).map List.reverse

end Fields

/-! ## References -/

namespace Expansion

/-- How the output of commands is obtained. -/
abbrev OutputOf := Tree → Act String

/-- Text from a reference. -/
def found (inQuotes : Bool) (s : String) : List Fragment :=
  [if inQuotes then .quoted s else .loose s]

/-- All positional parameters, as several fields or as one. -/
def allParameters (s : State) (name : String) (inQuotes : Bool) : List Fragment :=
  if inQuotes && name = "*" then
    let between :=
      match s.value? "IFS" with
      | none => " "
      | some separators => (separators.toList.head?.map Char.toString).getD ""
    [.quoted (between.intercalate s.parameters)]
  else
    match s.parameters with
    | [] => []
    | first :: rest =>
        found inQuotes first ++ rest.flatMap fun p => .border :: found inQuotes p

def isList (name : String) : Bool := name = "@" || name = "*"

/-- The value of a parameter, the list of all parameters written as one text. -/
def valueOf? (s : State) (name : String) : Option String :=
  if isList name then if s.parameters.isEmpty then none else some (" ".intercalate s.parameters)
  else s.parameter? name

def fragmentsOf (s : State) (name : String) (inQuotes : Bool) : List Fragment :=
  if isList name then allParameters s name inQuotes
  else found inQuotes ((s.parameter? name).getD "")

/-- Refuses parameters that are not set, where that was asked for. -/
def requireSet (name : String) : Act Unit := do
  let s ← get
  if s.has 'u' && !isList name && (s.parameter? name).isNone then
    Act.fail (name ++ ": parameter not set")

def joined (fragments : List Fragment) : String := String.join (fragments.map Fragment.text)

/-- A text without line breaks at its end. -/
def withoutEnd (s : String) : String :=
  String.ofList (s.toList.reverse.dropWhile (· = '\n')).reverse

/-- The value of a calculation. -/
def calculate (expression : String) : Act String := do
  let s ← get
  match Arithmetic.parse expression with
  | .error message =>
      Act.fail ("arithmetic expression: " ++ message ++ ": \"" ++ expression ++ "\"")
  | .ok e =>
      match Arithmetic.evaluate (fun name => (s.parameter? name).getD "") e [] with
      | .error .divisionByZero =>
          Act.fail ("arithmetic expression: division by zero: \"" ++ expression ++ "\"")
      | .error (.notANumber value) => Act.fail ("Illegal number: " ++ value)
      | .ok (n, set) =>
          set.reverse.forM fun (name, n) => Act.setVariable name (toString n)
          return toString n

/-- What is said about a parameter that has to be set and is not. -/
def refusal (orEmpty : Bool) (words : String) : String :=
  if words ≠ "" then words
  else if orEmpty then "parameter not set or null" else "parameter not set"

/-- What a part stands for. References inside references are followed at most so deep. -/
def ofPart (outputOf : OutputOf) : Nat → Part → Act (List Fragment)
  | _, .text s => return [.plain s]
  | _, .quoted s => return [.quoted s]
  | _, .output body inQuotes => do
      return found inQuotes (withoutEnd (← outputOf body))
  | 0, _ => throw .exhausted
  | depth + 1, .arithmetic w inQuotes => do
      let fragments ← w.parts.mapM (ofPart outputOf depth)
      return found inQuotes (← calculate (joined fragments.flatten))
  | depth + 1, .parameter name use w inQuotes => do
      let inner : Act (List Fragment) := do
        let fragments := (← w.parts.mapM (ofPart outputOf depth)).flatten
        return if inQuotes then (if fragments.isEmpty then [.quoted ""] else fragments)
          else fragments.map Fragment.loosen
      match use with
      | .bad => Act.fail "Bad substitution"
      | .value =>
          requireSet name
          return fragmentsOf (← get) name inQuotes
      | .length =>
          requireSet name
          return found inQuotes (toString ((valueOf? (← get) name).getD "").utf8ByteSize)
      | .trim atEnd longest =>
          requireSet name
          let pattern := ((← w.parts.mapM (ofPart outputOf depth)).flatten).flatMap Fragment.glyphs
          let value := (valueOf? (← get) name).getD ""
          return found inQuotes (Pattern.trim atEnd longest pattern value)
      | .unset fallback orEmpty =>
          let value := valueOf? (← get) name
          let missing := value.isNone || (orEmpty && value = some "")
          match fallback with
          | .otherwise => if missing then return found inQuotes "" else inner
          | .instead => if missing then inner else return fragmentsOf (← get) name inQuotes
          | .assign =>
              if missing then
                let value := joined (← inner)
                if !isName name then Act.fail (name ++ ": bad variable name")
                Act.setVariable name value
                return found inQuotes value
              else return fragmentsOf (← get) name inQuotes
          | .refuse =>
              if missing then Act.fail (name ++ ": " ++ refusal orEmpty (joined (← inner)))
              else return fragmentsOf (← get) name inQuotes

/-! ## Words -/

/-- What a tilde at the start of a text stands for, and what follows it; `none` if it stands for
itself. -/
def tilde? (s : State) (text : String) (atEnd : Bool) : Option (String × String) :=
  match text.toList with
  | '~' :: rest =>
      let user := rest.takeWhile fun c => c ≠ '/' && c ≠ ':'
      let following := rest.drop user.length
      if following.isEmpty && !atEnd then none
      else if user.isEmpty then (s.value? "HOME").map (·, String.ofList following)
      else if user = "root".toList then some ("/root", String.ofList following)
      else none
  | _ => none

/-- The parts of a word with a tilde at its start replaced. -/
def withTilde (s : State) : List Part → List Part
  | .text text :: rest =>
      match tilde? s text rest.isEmpty with
      | some (home, following) =>
          .quoted home :: (if following = "" then rest else .text following :: rest)
      | none => .text text :: rest
  | parts => parts

/-- The parts of the value that an assignment gives; tildes count at its start and after colons. -/
def valueParts (s : State) (text : String) (rest : List Part) : List Part :=
  let pieces := (Text.split (· = ':') text.toList).map String.ofList
  let parts := pieces.zipIdx.flatMap fun (piece, i) =>
    let shown : List Part :=
      match tilde? s piece (i + 1 < pieces.length || rest.isEmpty) with
      | some (home, following) => [.quoted home, .text following]
      | none => [.text piece]
    if i = 0 then shown else .text ":" :: shown
  parts ++ rest

/-- How deep references may stand inside one another. -/
def depthLimit : Nat := 1000

def fragments (outputOf : OutputOf) (parts : List Part) : Act (List Fragment) :=
  return (← parts.mapM (ofPart outputOf depthLimit)).flatten

/-- The fields that a word stands for. -/
def fields (outputOf : OutputOf) (w : Word) : Act (List String) := do
  let fragments ← fragments outputOf (withTilde (← get) w.parts)
  let s ← get
  let fields := Fields.ofFragments s.separators fragments
  return fields.flatMap fun gs => if s.has 'f' then [Pattern.text gs] else Pattern.files s.files gs

def allFields (outputOf : OutputOf) (words : List Word) : Act (List String) :=
  return (← words.mapM (fields outputOf)).flatten

/-- The one text that a word stands for. -/
def text (outputOf : OutputOf) (w : Word) : Act String := do
  return joined (← fragments outputOf (withTilde (← get) w.parts))

/-- The pattern that a word stands for. -/
def pattern (outputOf : OutputOf) (w : Word) : Act (List Glyph) := do
  return (← fragments outputOf (withTilde (← get) w.parts)).flatMap Fragment.glyphs

/-- The variable that a word sets, and its value. -/
def assignment (outputOf : OutputOf) (w : Word) : Act (String × String) := do
  match w.parts with
  | .text s :: rest =>
      let name := s.toList.takeWhile (· ≠ '=')
      let start := String.ofList (s.toList.drop (name.length + 1))
      let parts := valueParts (← get) start rest
      return (String.ofList name, joined (← fragments outputOf parts))
  | _ => return ("", "")

/-- The text of a here-document. -/
def document (outputOf : OutputOf) (number : Nat) : Act String := do
  match (← get).documents.lookup number with
  | some w => return joined (← fragments outputOf w.parts)
  | none => return ""

end Expansion

end Docset.Shell
