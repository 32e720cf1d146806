import Docset.Program.Image
import Docset.Shell.State

/-!
# What command names stand for

A command is a function of the script, a command that the shell carries out itself,
or a program. Programs are looked for in the folders of the search path.
-/
namespace Docset.Shell

/-- Commands that the shell carries out itself. An error in one of these ends the script, and
variables that are set in front of them stay set. -/
def specialBuiltins : List String :=
  [".", ":", "break", "continue", "eval", "exec", "exit", "export", "local", "readonly", "return",
    "set", "shift", "times", "trap", "unset"]

/-- The other commands that the shell carries out itself. -/
def ordinaryBuiltins : List String :=
  ["[", "alias", "bg", "cd", "chdir", "command", "echo", "false", "fg", "getopts", "hash", "jobs",
    "kill", "printf", "pwd", "read", "test", "true", "type", "ulimit", "umask", "unalias", "wait"]

/-- What a command name stands for. -/
inductive Meaning where
  | special
  | function (body : Tree)
  | builtin
  /-- A program that is started by one of these paths, tried in order. -/
  | program (paths : List String)
  | missing (cause : IoError)

/-- Whether an error only says that there is nothing of a name. -/
def isAbsence (e : IoError) : Bool := e = .notFound || e = .notAFolder

/-- How complaints call an error; what a missing file is called depends on what it was for. -/
def reasonFor (absent : String) (e : IoError) : String := if isAbsence e then absent else e.reason

/-- The status of a command that could not be started. -/
def startStatus (e : IoError) : Nat :=
  if isAbsence e || e = .tooManyLinks || e = .nameTooLong then 127 else 126

/-- The paths of a bare name from the first one on that is a file. -/
def searchFrom (fs : FileSystem) (cause : IoError) : List String → Except IoError (List String)
  | [] => .error cause
  | path :: rest =>
      match fs.stat ⟨path⟩ with
      | .ok (_, .file _ _) => .ok (path :: rest)
      | .ok _ => searchFrom fs .permissionDenied rest
      | .error e => searchFrom fs (if isAbsence e then cause else e) rest

namespace State

/-- The paths at which a program is looked for. -/
def searchFor (s : State) (path : Option String) (name : String) : Except IoError (List String) :=
  if name.toList.contains '/' then .ok [name]
  else
    match path with
    | some path => searchFrom s.files .notFound (Program.candidates path name)
    | none => .error .notFound

/-- What a name stands for; functions may be passed over. -/
def meaning (s : State) (withFunctions : Bool) (name : String) : Meaning :=
  if specialBuiltins.contains name then .special
  else
    match if withFunctions then s.functions.lookup name else none with
    | some body => .function body
    | none =>
        if ordinaryBuiltins.contains name then .builtin
        else
          match s.searchFor (s.value? "PATH") name with
          | .ok paths => .program paths
          | .error e => .missing e

/-- What there is to say about a name, in full or in short; `none` if it stands for nothing. -/
def describe? (s : State) (inFull : Bool) (name : String) : Option String :=
  let tell (what : String) : Option String := some (if inFull then name ++ " is " ++ what else name)
  if Token.keywords.contains name then tell "a shell keyword"
  else
    match s.meaning true name with
    | .special => tell "a special shell builtin"
    | .function _ => tell "a shell function"
    | .builtin => tell "a shell builtin"
    | .program (path :: _) =>
        if s.files.present ⟨path⟩ then some (if inFull then name ++ " is " ++ path else path)
        else none
    | _ => none

end State

end Docset.Shell
