import Docset.Program.Basic

/-!
# Conditions

What `test` and `[` decide. A condition is made of questions about files, texts and
numbers, joined by `-a` and `-o`, negated by `!` and grouped by parentheses. A word
that could be an operator is an operand where the words around it leave it no other
part.

A question consumes words from the front of a list; what it gives back starts with
the last word that belongs to it.
-/
namespace Docset.Program.Condition

def unaryOperators : List String :=
  ["-r", "-w", "-x", "-e", "-f", "-d", "-c", "-b", "-p", "-u", "-g", "-k", "-s", "-t", "-z", "-n",
    "-h", "-L", "-O", "-G", "-S"]

def binaryOperators : List String :=
  ["=", "!=", "<", ">", "-eq", "-ne", "-ge", "-gt", "-le", "-lt", "-nt", "-ot", "-ef"]

def otherOperators : List String := ["!", "-a", "-o", "(", ")"]

/-- Whether a word that could be a unary operator is an operand, given the words after it. -/
def isOperand : List String → Bool
  | [] => true
  | [_] => false
  | next :: _ :: _ => binaryOperators.contains next

/-- The operator at the front of a list of words. -/
def operator? : List String → Option String
  | [] => none
  | word :: rest =>
      if unaryOperators.contains word then if isOperand rest then none else some word
      else if word = "(" && rest.isEmpty then none
      else if binaryOperators.contains word || otherOperators.contains word then some word
      else none

/-- The integer that decimal digits write, with a sign or without. -/
def integer? (s : String) : Option Int :=
  let isBlank (c : Char) : Bool := c = ' ' || c = '\t' || c = '\n'
  let cs := ((s.toList.dropWhile isBlank).reverse.dropWhile isBlank).reverse
  match cs with
  | '-' :: ds => (natural? (String.ofList ds)).map fun n => -(n : Int)
  | '+' :: ds => (natural? (String.ofList ds)).map Int.ofNat
  | ds => (natural? (String.ofList ds)).map Int.ofNat

/-- The integers that fit into a machine word. -/
def isWord (n : Int) : Bool := -9223372036854775808 ≤ n && n ≤ 9223372036854775807

def integer (s : String) : Except String Int :=
  match (integer? s).filter isWord with
  | some n => .ok n
  | none => .error ("Illegal number: " ++ s)

/-- Whether a path stands for something that may be run or entered. -/
def isRunnable (fs : FileSystem) (p : Path) : Bool :=
  match fs.stat p with
  | .ok (_, .folder) => true
  | .ok (_, .file _ runnable) => runnable
  | _ => false

def isLink (fs : FileSystem) (p : Path) : Bool :=
  match fs.lstat p with
  | .ok (_, .link _) => true
  | _ => false

def unary (fs : FileSystem) (op operand : String) : Bool :=
  let p : Path := ⟨operand⟩
  match op with
  | "-n" => operand ≠ ""
  | "-z" => operand = ""
  | "-e" => fs.present p
  | "-f" => fs.isFile p
  | "-d" => fs.isFolder p
  | "-s" => fs.isFolder p || (fs.read p).toOption.any fun bytes => bytes.size ≠ 0
  | "-x" => isRunnable fs p
  | "-r" => fs.present p
  | "-w" => fs.present p
  | "-O" => fs.present p
  | "-G" => fs.present p
  | "-h" => isLink fs p
  | "-L" => isLink fs p
  | "-c" => (fs.stat p).toOption.any fun found => found.2 = .void
  | _ => false

def samePlace (fs : FileSystem) (a b : String) : Bool :=
  match fs.stat ⟨a⟩, fs.stat ⟨b⟩ with
  | .ok (m, _), .ok (n, _) => m = n
  | _, _ => false

/-- How an operator compares two integers. -/
def comparison? (op : String) : Option (Int → Int → Bool) :=
  match op with
  | "-eq" => some fun m n => m = n
  | "-ne" => some fun m n => m ≠ n
  | "-ge" => some fun m n => n ≤ m
  | "-gt" => some fun m n => n < m
  | "-le" => some fun m n => m ≤ n
  | "-lt" => some fun m n => m < n
  | _ => none

def binary (fs : FileSystem) (a op b : String) : Except String Bool :=
  match comparison? op with
  | some compares => do
      let m ← integer a
      let n ← integer b
      return compares m n
  | none =>
      match op with
      | "=" => .ok (a = b)
      | "!=" => .ok (a ≠ b)
      | "<" => .ok (a < b)
      | ">" => .ok (b < a)
      | "-ef" => .ok (samePlace fs a b)
      | _ => .ok false

abbrev Answer := Except String (Bool × List String)

mutual

/-- A single question. -/
def primary (fs : FileSystem) : Nat → List String → Answer
  | 0, words => .ok (false, words)
  | fuel + 1, words =>
      match words with
      | [] => .ok (false, [])
      | word :: rest =>
          match operator? words with
          | some "(" =>
              if operator? rest = some ")" then .ok (false, rest)
              else do
                let (answer, last) ← disjunction fs fuel rest
                let closing := last.drop 1
                if operator? closing = some ")" then return (answer, closing)
                else throw "closing paren expected"
          | op =>
              match op.filter unaryOperators.contains, rest with
              | some op, [] => .error (op ++ ": argument expected")
              | some op, operand :: _ => .ok (unary fs op operand, rest)
              | none, _ =>
                  match (operator? rest).filter binaryOperators.contains, rest.drop 1 with
                  | some op, [] => .error (op ++ ": argument expected")
                  | some op, second :: more => do
                      return (← binary fs word op second, second :: more)
                  | none, _ => .ok (word ≠ "", words)

def negation (fs : FileSystem) : Nat → List String → Answer
  | 0, words => .ok (false, words)
  | fuel + 1, words =>
      if operator? words = some "!" then
        match words.drop 1 with
        | [] => .ok (true, words)
        | rest => (negation fs fuel rest).map fun (answer, last) => (!answer, last)
      else primary fs fuel words

def conjunction (fs : FileSystem) : Nat → List String → Answer
  | 0, words => .ok (false, words)
  | fuel + 1, words => do
      let (answer, last) ← negation fs fuel words
      if operator? (last.drop 1) = some "-a" then
        let (more, last) ← conjunction fs fuel (last.drop 2)
        return (answer && more, last)
      else return (answer, last)

def disjunction (fs : FileSystem) : Nat → List String → Answer
  | 0, words => .ok (false, words)
  | fuel + 1, words => do
      let (answer, last) ← conjunction fs fuel words
      if operator? (last.drop 1) = some "-o" then
        let (more, last) ← disjunction fs fuel (last.drop 2)
        return (answer || more, last)
      else return (answer, last)

end

/-- Answers a whole condition. -/
def whole (fs : FileSystem) (words : List String) : Except String Bool := do
  if words.isEmpty then return false
  let (answer, last) ← disjunction fs (4 * words.length + 4) words
  match last with
  | word :: _ :: _ =>
      throw (if word = "" then "unexpected operator" else word ++ ": unexpected operator")
  | _ => return answer

/-- Answers a condition. Three words with a comparison in the middle are one. Otherwise, of three or
four words, a negation or parentheses at the outside are looked at first. -/
def holds (fs : FileSystem) (words : List String) : Except String Bool :=
  let few := words.length = 3 || words.length = 4
  match words with
  | [a, op, b] =>
      if binaryOperators.contains op then binary fs a op b
      else if a = "(" && b = ")" then whole fs [op]
      else if a = "!" then (whole fs [op, b]).map (!·)
      else whole fs words
  | "!" :: rest => if few then (comparison fs rest).map (!·) else whole fs words
  | "(" :: rest =>
      if few && rest.getLast? = some ")" then whole fs rest.dropLast else whole fs words
  | words => whole fs words
where
  /-- Three words that a negation was taken from. -/
  comparison (fs : FileSystem) : List String → Except String Bool
    | [a, op, b] =>
        if binaryOperators.contains op then binary fs a op b
        else if a = "!" then (whole fs [op, b]).map (!·)
        else whole fs [a, op, b]
    | words => whole fs words

/-- Answers the condition in the arguments of `test`, or of `[` with its closing bracket. -/
def ofArguments (fs : FileSystem) (name : String) (args : List String) : Except String Bool :=
  if name = "[" then
    if args.getLast? = some "]" then holds fs args.dropLast else .error "missing ]"
  else holds fs args

end Docset.Program.Condition
