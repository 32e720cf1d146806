import Docset.Program.Names
import Docset.Shell.Pattern

/-!
# Walking through folders

The program `find` goes through folders from the top, each before what is in it, and
writes the paths that pass its tests; `which` tells the paths of programs.
-/
namespace Docset.Program.Find

/-- A test that a path has to pass. -/
inductive Test where
  | name (pattern : String) (ignoreCase : Bool)
  | kind (letter : Char)
  | isEmpty
  | negation (t : Test)
  /-- Everything up to here or everything after it. -/
  | alternative

/-- What is asked of `find`. -/
structure Query where
  tests : List Test := []
  least : Nat := 0
  most : Option Nat := none
  deletes : Bool := false

def Query.add (q : Query) (negated : Bool) (t : Test) : Query :=
  { q with tests := (if negated then .negation t else t) :: q.tests }

/-- Words that have a value after them. -/
def valuedWords : List String := ["-name", "-iname", "-type", "-maxdepth", "-mindepth"]

/-- Takes up a word with its value. -/
def Query.takeValued (q : Query) (negated : Bool) (word value : String) : Query :=
  match word with
  | "-name" => q.add negated (.name value false)
  | "-iname" => q.add negated (.name value true)
  | "-type" => q.add negated (.kind (value.toList.headD 'f'))
  | "-maxdepth" => { q with most := natural? value }
  | _ => { q with least := (natural? value).getD 0 }

/-- Takes up a word without a value; `none` if there is no such word. -/
def Query.take? (q : Query) (negated : Bool) (word : String) : Option Query :=
  match word with
  | "-empty" => some (q.add negated .isEmpty)
  | "-delete" => some { q with deletes := true }
  | "-o" => some { q with tests := .alternative :: q.tests }
  | "-a" => some q
  | "-print" => some q
  | _ => none

/-- Reads the expression of a call. -/
def readQuery (q : Query) (negated : Bool) : List String → Except String Query
  | [] => .ok { q with tests := q.tests.reverse }
  | word :: rest =>
      if word = "!" || word = "-not" then readQuery q (!negated) rest
      else if valuedWords.contains word then
        match rest with
        | value :: rest => readQuery (q.takeValued negated word value) false rest
        | [] => .error ("missing argument to \x60" ++ word ++ "'")
      else
        match q.take? negated word with
        | some q => readQuery q false rest
        | none => .error ("unknown predicate \x60" ++ word ++ "'")

def passes (fs : FileSystem) (path : String) (place : Location) (entry : Entry) : Test → Bool
  | .name pattern ignoreCase =>
      let fold (s : String) : String := if ignoreCase then s.map Char.toLower else s
      let glyphs := (fold pattern).toList.map fun c => (c, false)
      Shell.Pattern.isMatch glyphs (fold (baseName path))
  | .kind letter =>
      match entry with
      | .file _ _ => letter = 'f'
      | .folder => letter = 'd'
      | .link _ => letter = 'l'
      | .void => letter = 'c'
  | .isEmpty =>
      match entry with
      | .file bytes _ => bytes.isEmpty
      | .folder => (fs.children place).isEmpty
      | _ => false
  | .negation t => !passes fs path place entry t
  | .alternative => true

/-- Whether all tests of one alternative are passed. -/
def passesAll (fs : FileSystem) (path : String) (place : Location) (entry : Entry) :
    List Test → Bool → Bool
  | [], soFar => soFar
  | .alternative :: rest, soFar => soFar || passesAll fs path place entry rest true
  | t :: rest, soFar => passesAll fs path place entry rest (soFar && passes fs path place entry t)

/-- The paths at and below a path that pass, at most so many folders deep. -/
def walk (fs : FileSystem) (q : Query) : Nat → Nat → String → List String
  | 0, _, _ => []
  | fuel + 1, depth, path =>
      match fs.lstat ⟨path⟩ with
      | .error _ => []
      | .ok (place, entry) =>
          let here :=
            if q.least ≤ depth && passesAll fs path place entry q.tests true then [path] else []
          if entry = .folder && q.most.all (depth < ·) then
            here ++ (fs.children place).flatMap fun (name, _) =>
              walk fs q fuel (depth + 1) (inside path name)
          else here

/-- Deletes what was found, the inner before the outer. -/
def deleteAll (paths : List String) (fs : FileSystem) : FileSystem :=
  paths.reverse.foldl (fun fs path =>
    match fs.lstat ⟨path⟩ with
    | .ok (place, .folder) => if (fs.children place).isEmpty then fs.erase place else fs
    | .ok (place, _) => fs.erase place
    | .error _ => fs) fs

/-- The program of that name. -/
def run : Program := fun c =>
  let isPath (s : String) : Bool := !(s.toList.head? = some '-' || s = "!" || s = "(")
  let operands := c.args.takeWhile isPath
  match readQuery {} false (c.args.dropWhile isPath) with
  | .error message => c.begin.fail 1 (c.name ++ ": " ++ message)
  | .ok q =>
      each c.begin (if operands.isEmpty then ["."] else operands) fun out operand =>
        match out.files.lstat ⟨operand⟩ with
        | .error e => out.fail 1 (c.name ++ ": " ++ quote operand ++ ": " ++ e.reason)
        | .ok _ =>
            let found := walk out.files q 4096 0 operand
            if q.deletes then { out with files := deleteAll found out.files }
            else out.say (String.join (found.map (· ++ "\n")))

/-- Tells the paths of programs. -/
def which : Program := withOptions "as" "" fun c o =>
  each c.begin o.operands fun out name =>
    let path := (c.environment.lookup "PATH").getD ""
    let folders := (Text.split (· = ':') path.toList).map String.ofList
    let candidates := if name.toList.contains '/' then [name]
      else folders.map fun f => if f = "" then "./" ++ name else f ++ "/" ++ name
    let found := candidates.filter fun p =>
      match out.files.stat ⟨p⟩ with
      | .ok (_, .file _ runnable) => runnable
      | _ => false
    match found with
    | [] => { out with status := 1 }
    | first :: _ =>
        out.say (String.join ((if o.has 'a' then found else [first]).map (· ++ "\n")))

end Docset.Program.Find
