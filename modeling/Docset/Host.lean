import Docset.Command.Run
import Docset.Scan.Module

/-!
# The host

What is not decided here is left to a host: whether the pattern of a call can be compiled,
in what words a document is turned down, and what a program does that is run. Nothing is
assumed of a host, so what is said of a build is said for every one of them.
-/
namespace Docset

/-- The documents that are read from files. -/
inductive Document where
  | configuration
  | stories
  deriving DecidableEq, Repr

structure Host where
  compile : Scan.PatternCompiler
  /-- Says why a text is no such document. -/
  explain : Document → String → String
  start : Command.Starter

namespace Scan

/-- Compiles patterns that take up no more than `limit` bytes, which is 32 for every byte of the
lead. The few states that each pattern needs for its white space and its parenthesis are not
counted. -/
def compileWithin (limit : Nat) : PatternCompiler := fun p =>
  if 32 * Text.byteLength p.lead ≤ limit then .ok ()
  else .error ("Compiled regex exceeds size limit of " ++ toString limit ++ " bytes.")

/-- Ten mebibytes. -/
def defaultPatternLimit : Nat := 10485760

end Scan

/-- A host that has one program, which does nothing and succeeds. -/
def Host.bare : Host where
  compile := Scan.compileWithin Scan.defaultPatternLimit
  explain _ _ := "expected value at line 1 column 1"
  start setting _ program _ :=
    if program = "true" then return ⟨.status 0, .empty, setting.input⟩
    else throw IoError.notFound.message

end Docset
