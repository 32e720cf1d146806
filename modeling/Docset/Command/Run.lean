import Docset.Files.System
import Docset.Program.Exit
import Docset.Text.Utf8
import Docset.Text.Words

/-!
# Running commands

A command is a program name and its arguments, run in a folder. What programs there are
and what they do to the files is left open: a starter is whatever runs them. The output of
a command is not shown; a command that fails is reported by the last line it wrote to
standard error or, if it wrote none, by the way it ended. Commands that are run one after
the other read from the same input.
-/
namespace Docset.Command

/-- Why a command did not succeed. -/
inductive Failure where
  | noCommand
  /-- The program could not be started. -/
  | notStarted (reason : String)
  | unsuccessful (message : String)
  deriving DecidableEq, Repr

def Failure.message : Failure → String
  | noCommand => "no command configured"
  | notStarted reason => reason
  | unsuccessful message => message

/-- What commands find when they are started. -/
structure Setting where
  environment : List (String × String) := []
  /-- What there is to read on standard input. -/
  input : ByteArray := .empty

/-- What came of a program that was started. -/
structure Ending where
  exit : Program.Exit
  /-- What it wrote to standard error. -/
  errors : ByteArray
  /-- What it did not read of its input. -/
  rest : ByteArray

/-- Runs a program with arguments in a folder, or says why it could not be started. -/
abbrev Starter := Setting → Path → String → List String → FileAction String Ending

/-- The last line of a text, free of surrounding white space; `none` if it is blank. -/
def lastLine? (text : String) : Option String :=
  match Text.trim text.toList with
  | [] => none
  | trimmed =>
      (Text.split (· = '\n') trimmed).getLast?.map fun line =>
        String.ofList (if line.getLast? = some '\r' then line.dropLast else line)

/-- What is said about a command that did not succeed. -/
def endMessage (exit : Program.Exit) (errors : ByteArray) : String :=
  (lastLine? (Text.decodeLossy errors)).getD exit.message

/-- Runs a command in a folder, and gives back what it did not read of its input. -/
def run (start : Starter) (setting : Setting) (folder : Path) :
    List String → FileAction Failure ByteArray
  | [] => throw .noCommand
  | program :: args => do
      let ending ← (start setting folder program args).mapError .notStarted
      if ending.exit = .status 0 then return ending.rest
      else throw (.unsuccessful (endMessage ending.exit ending.errors))

end Docset.Command
