/-!
# Scripts as trees

What a shell script says, free of its spelling. A word is a sequence of parts, some
of which stand for text that is only known when the script runs: the value of a
parameter, the output of commands, the result of a calculation. Commands are put
together from simple ones.

Simple commands and a few others remember the line that they stand on, because
complaints quote it. The text of a here-document comes after the line that asks for
it, so a tree refers to it by a number only.
-/
namespace Docset.Shell

/-- What happens to a parameter that is not set. -/
inductive Fallback where
  /-- A word is used instead. -/
  | instead
  /-- The parameter is set to a word. -/
  | assign
  /-- The script ends with a word as its complaint. -/
  | refuse
  /-- A word is used, but only where the parameter is set. -/
  | otherwise
  deriving DecidableEq, Repr

/-- What is taken from a parameter. -/
inductive Use where
  | value
  | length
  /-- The value, or something else where it is missing; `orEmpty` says that an empty value counts
  as missing. -/
  | unset (fallback : Fallback) (orEmpty : Bool)
  /-- The value without a start or an end that matches a pattern. -/
  | trim (atEnd longest : Bool)
  /-- A reference that makes no sense. -/
  | bad
  deriving DecidableEq, Repr

/-- How a file is opened. -/
inductive Opening where
  | input
  | output
  | append
  | both
  deriving DecidableEq, Repr

mutual

/-- A piece of a word. Text that was quoted stands for itself. -/
inductive Part where
  | text (s : String)
  | quoted (s : String)
  | parameter (name : String) (use : Use) (word : Word) (inQuotes : Bool)
  | output (body : Tree) (inQuotes : Bool)
  | arithmetic (expression : Word) (inQuotes : Bool)

inductive Word where
  | ofParts (parts : List Part)

/-- A change to where a numbered channel leads. -/
inductive Redirection where
  | file (channel : Nat) (opening : Opening) (name : Word)
  | duplicate (channel : Nat) (target : Word)
  | document (channel : Nat) (number : Nat)

/-- A branch of a choice by patterns. -/
inductive Branch where
  | when (patterns : List Word) (body : Tree)

inductive Tree where
  | nothing
  | simple (line : Nat) (assignments words : List Word) (redirections : List Redirection)
  | function (name : String) (body : Tree)
  | negation (body : Tree)
  | both (first second : Tree)
  | either (first second : Tree)
  | sequence (first second : Tree)
  | background (body : Tree)
  | pipeline (commands : List Tree)
  | subshell (line : Nat) (body : Tree) (redirections : List Redirection)
  | redirected (line : Nat) (body : Tree) (redirections : List Redirection)
  | conditional (test yes : Tree) (no : Option Tree)
  /-- The body is run as long as the test succeeds or, if `untilSuccess`, fails. -/
  | loop (untilSuccess : Bool) (test body : Tree)
  | each (line : Nat) (name : String) (words : List Word) (body : Tree)
  | choice (line : Nat) (subject : Word) (branches : List Branch)

end

namespace Word

def parts : Word → List Part
  | ofParts parts => parts

/-- The text of a word that was written without quotes and references. -/
def literal? (w : Word) : Option String :=
  match w.parts with
  | [.text s] => some s
  | _ => none

end Word

/-- Characters of names. -/
def isNameChar (c : Char) : Bool := c.isAlphanum || c = '_'

/-- Whether a text can name a variable or a function. -/
def isName (s : String) : Bool :=
  s.toList.all isNameChar && s.toList.head?.any fun c => !c.isDigit

/-- Whether a word sets a variable: it starts with a name and an equals sign. -/
def Word.isAssignment (w : Word) : Bool :=
  match w.parts with
  | .text s :: _ =>
      s.toList.contains '=' && isName (String.ofList (s.toList.takeWhile (· ≠ '=')))
  | _ => false

end Docset.Shell
