import Docset.Program.Condition
import Docset.Program.Quoting

/-!
# The programs `test` and `[`

These answer the same questions as the commands of the shell that go by their
names. They read their arguments in a stricter way and have other words for what is
wrong with them. How up to four arguments are read depends on their number.
-/
namespace Docset.Program.Test

open Condition (unary samePlace comparison? integer?)

/-- An answer and the words that are left, or a complaint. -/
abbrev Answer := Except String (Bool × List String)

def binaryOperators : List String :=
  ["=", "!=", "==", "-nt", "-ot", "-ef", "-eq", "-ne", "-lt", "-le", "-gt", "-ge"]

def integer (s : String) : Except String Int :=
  match integer? s with
  | some n => .ok n
  | none => .error ("invalid integer " ++ quote s)

def binary (fs : FileSystem) (a op b : String) : Except String Bool :=
  match comparison? op with
  | some compares => do
      let m ← integer a
      let n ← integer b
      return compares m n
  | none =>
      match op with
      | "-nt" => .ok (fs.present ⟨a⟩ && !fs.present ⟨b⟩)
      | "-ot" => .ok (!fs.present ⟨a⟩ && fs.present ⟨b⟩)
      | _ => Condition.binary fs a (if op = "==" then "=" else op) b

def looksUnary (word : String) : Bool :=
  word.length = 2 && word.toList.head? = some '-'

/-- The complaint about arguments that end too early. -/
def beyond {α : Type} (last : String) : Except String α :=
  .error ("missing argument after " ++ quote last)

def oneWord (last : String) : List String → Answer
  | [] => beyond last
  | word :: rest => .ok (word ≠ "", rest)

def unaryQuestion (fs : FileSystem) (last : String) : List String → Answer
  | [] => beyond last
  | op :: rest =>
      if Condition.unaryOperators.contains op || op = "-N" then
        match rest with
        | [] => beyond last
        | operand :: rest => .ok (unary fs op operand, rest)
      else .error (quote op ++ ": unary operator expected")

def twoWords (fs : FileSystem) (last : String) (words : List String) : Answer :=
  match words with
  | "!" :: rest => (oneWord last rest).map fun (answer, rest) => (!answer, rest)
  | word :: _ => if looksUnary word then unaryQuestion fs last words else beyond last
  | [] => beyond last

mutual

/-- Reads a condition of so many words. -/
def counted (fs : FileSystem) (last : String) : Nat → Nat → List String → Answer
  | 0, _, _ => beyond last
  | fuel + 1, count, words =>
      match count, words with
      | 1, words => oneWord last words
      | 2, words => twoWords fs last words
      | 3, words => threeWords fs last fuel words
      | 4, "!" :: rest =>
          (threeWords fs last fuel rest).map fun (answer, rest) => (!answer, rest)
      | 4, "(" :: a :: b :: ")" :: rest =>
          (twoWords fs last [a, b]).map fun (answer, _) => (answer, rest)
      | _, words => disjunction fs last fuel words

def threeWords (fs : FileSystem) (last : String) : Nat → List String → Answer
  | 0, _ => beyond last
  | fuel + 1, words =>
      match words with
      | a :: op :: b :: rest =>
          if binaryOperators.contains op then (binary fs a op b).map (·, rest)
          else if a = "!" then
            (twoWords fs last (op :: b :: rest)).map fun (answer, rest) => (!answer, rest)
          else if a = "(" && b = ")" then .ok (op ≠ "", rest)
          else if ["-a", "-o", ">", "<"].contains op then disjunction fs last fuel words
          else .error (quote op ++ ": binary operator expected")
      | _ => beyond last

def disjunction (fs : FileSystem) (last : String) : Nat → List String → Answer
  | 0, _ => beyond last
  | fuel + 1, words => do
      let (answer, rest) ← conjunction fs last fuel words
      match rest with
      | "-o" :: rest =>
          let (more, rest) ← disjunction fs last fuel rest
          return (answer || more, rest)
      | rest => return (answer, rest)

def conjunction (fs : FileSystem) (last : String) : Nat → List String → Answer
  | 0, _ => beyond last
  | fuel + 1, words => do
      let (answer, rest) ← term fs last fuel words
      match rest with
      | "-a" :: rest =>
          let (more, rest) ← conjunction fs last fuel rest
          return (answer && more, rest)
      | rest => return (answer, rest)

def term (fs : FileSystem) (last : String) : Nat → List String → Answer
  | 0, _ => beyond last
  | fuel + 1, words =>
      match words with
      | [] => beyond last
      | "!" :: rest => (term fs last fuel rest).map fun (answer, rest) => (!answer, rest)
      | "(" :: rest => do
          if rest.isEmpty then beyond last
          let inner := (rest.drop 1).takeWhile (· ≠ ")")
          let count := if inner.length < 4 && inner.length + 1 < rest.length then inner.length + 1
            else rest.length
          let (answer, rest) ← counted fs last fuel count rest
          match rest with
          | [] => .error (quote ")" ++ " expected")
          | ")" :: rest => return (answer, rest)
          | word :: _ => .error (quote ")" ++ " expected, found " ++ quote word)
      | a :: op :: b :: rest =>
          if binaryOperators.contains op then (binary fs a op b).map (·, rest)
          else if looksUnary a then unaryQuestion fs last words
          else .ok (a ≠ "", op :: b :: rest)
      | word :: rest =>
          if looksUnary word then unaryQuestion fs last words else .ok (word ≠ "", rest)

end

/-- Answers the condition in some arguments. -/
def holds (fs : FileSystem) (words : List String) : Except String Bool := do
  if words.isEmpty then return false
  let last := words.getLast?.getD ""
  let (answer, rest) ← counted fs last (4 * words.length + 4) words.length words
  match rest with
  | [] => return answer
  | word :: _ => throw ("extra argument " ++ quote word)

/-- Runs the program; as `[`, it wants a closing bracket. -/
def run (bracketed : Bool) : Program := fun c =>
  let answer : Except String Bool :=
    if bracketed then
      if c.args.getLast? = some "]" then holds c.files c.args.dropLast
      else .error ("missing " ++ quote "]")
    else holds c.files c.args
  match answer with
  | .ok answer => { c.begin with status := if answer then 0 else 1 }
  | .error message => c.begin.fail 2 (c.name ++ ": " ++ message)

end Docset.Program.Test
