/-!
# Calculations

The integer expressions of scripts: the operators of the usual precedence, variables
by name, and assignments to them. Numbers have 64 bits and wrap around. What stands
on the side of a choice that is not taken is read but not calculated.
-/
namespace Docset.Shell.Arithmetic

inductive Token where
  | number (n : Int)
  | name (s : String)
  | sign (s : String)
  deriving DecidableEq, Repr

/-- Signs, the longer ones before those that they start with. -/
def signs : List String :=
  ["<<=", ">>=", "&&", "||", "<<", ">>", "<=", ">=", "==", "!=", "+=", "-=", "*=", "/=", "%=", "&=",
    "|=", "^=", "+", "-", "*", "/", "%", "<", ">", "=", "!", "~", "&", "|", "^", "?", ":", "(", ")"]

/-- The largest number. -/
def largest : Int := 9223372036854775807

/-- The number of 64 bits that a number wraps around to. -/
def wrap (n : Int) : Int := Int.bmod n 18446744073709551616

def digitValue (c : Char) : Nat :=
  if c.isDigit then c.toNat - '0'.toNat else c.toLower.toNat - 'a'.toNat + 10

/-- Whether a character is a digit in a base. -/
def isDigitOf (base : Nat) (c : Char) : Bool :=
  (c.isDigit || c.isAlpha) && digitValue c < base

def valueOf (base : Nat) (digits : List Char) : Int :=
  min largest (digits.foldl (fun n c => n * base + digitValue c) 0 : Nat)

/-- The number at the start of a text, and how many characters it takes: decimal, octal after a
zero, hexadecimal after `0x`. -/
def numberAhead (cs : List Char) : Int × Nat :=
  let digits (base skip : Nat) : Int × Nat :=
    let ds := (cs.drop skip).takeWhile (isDigitOf base)
    (valueOf base ds, skip + ds.length)
  match cs with
  | '0' :: x :: d :: _ =>
      if (x = 'x' || x = 'X') && isDigitOf 16 d then digits 16 2 else digits 8 0
  | '0' :: _ => digits 8 0
  | _ => digits 10 0

/-- The sign at the start of a text. -/
def signAhead? (cs : List Char) : Option String := signs.find? fun s => s.toList.isPrefixOf cs

/-- Cuts an expression into tokens; `none` if a character has no meaning. The first number counts
characters that are already dealt with. -/
def tokens? : (skip : Nat) → List Char → Option (List Token)
  | _, [] => some []
  | skip + 1, _ :: rest => tokens? skip rest
  | 0, c :: rest =>
      if c = ' ' || c = '\t' || c = '\n' then tokens? 0 rest
      else if c.isDigit then
        let (n, length) := numberAhead (c :: rest)
        (tokens? (length - 1) rest).map (.number n :: ·)
      else if c.isAlpha || c = '_' then
        let name := (c :: rest).takeWhile fun c => c.isAlphanum || c = '_'
        (tokens? (name.length - 1) rest).map (.name (String.ofList name) :: ·)
      else
        match signAhead? (c :: rest) with
        | some s => (tokens? (s.length - 1) rest).map (.sign s :: ·)
        | none => none

inductive Expression where
  | number (n : Int)
  | reference (name : String)
  | unary (sign : String) (e : Expression)
  | binary (sign : String) (a b : Expression)
  | both (a b : Expression)
  | either (a b : Expression)
  | choice (test yes no : Expression)
  /-- Sets a variable, to a value calculated from its old one if there is a sign. -/
  | assign (name : String) (sign : Option String) (e : Expression)
  deriving Repr

/-- How strongly two operands are bound by a sign; 0 for what is no such sign. -/
def strength (s : String) : Nat :=
  if ["*", "/", "%"].contains s then 10
  else if ["+", "-"].contains s then 9
  else if ["<<", ">>"].contains s then 8
  else if ["<", ">", "<=", ">="].contains s then 7
  else if ["==", "!="].contains s then 6
  else if s = "&" then 5
  else if s = "^" then 4
  else if s = "|" then 3
  else if s = "&&" then 2
  else if s = "||" then 1
  else 0

/-- The sign of the calculation that an assignment makes. -/
def assignment? (s : String) : Option (Option String) :=
  if s = "=" then some none
  else if ["<<=", ">>=", "+=", "-=", "*=", "/=", "%=", "&=", "|=", "^="].contains s then
    some (some (String.ofList s.toList.dropLast))
  else none

def combine (s : String) (a b : Expression) : Expression :=
  if s = "&&" then .both a b else if s = "||" then .either a b else .binary s a b

abbrev Parsed := Except String (Expression × List Token)

mutual

/-- Reads an operand. -/
def primary : Nat → List Token → Parsed
  | 0, _ => .error "expecting primary"
  | _ + 1, .number n :: rest => .ok (.number n, rest)
  | _ + 1, .name s :: rest => .ok (.reference s, rest)
  | fuel + 1, .sign s :: rest =>
      if s = "(" then
        match assignment fuel rest with
        | .ok (e, .sign ")" :: rest) => .ok (e, rest)
        | .ok _ => .error "expecting ')'"
        | .error m => .error m
      else if ["!", "~", "+", "-"].contains s then
        (primary fuel rest).map fun (e, rest) => (.unary s e, rest)
      else .error "expecting primary"
  | _ + 1, [] => .error "expecting primary"

/-- Reads what is bound to an operand by signs of a strength and above. -/
def following : Nat → Nat → Expression → List Token → Parsed
  | fuel + 1, least, a, .sign s :: rest =>
      if least ≤ strength s && strength s ≠ 0 then
        match primary fuel rest with
        | .ok (b, rest) =>
            match following fuel (strength s + 1) b rest with
            | .ok (b, rest) => following fuel least (combine s a b) rest
            | .error m => .error m
        | .error m => .error m
      else .ok (a, .sign s :: rest)
  | _, _, a, ts => .ok (a, ts)

/-- Reads a choice between two values, or an expression without one. -/
def choice : Nat → List Token → Parsed
  | 0, _ => .error "expecting primary"
  | fuel + 1, ts => do
      let (a, rest) ← primary fuel ts
      let (test, rest) ← following fuel 1 a rest
      match rest with
      | .sign "?" :: rest =>
          match assignment fuel rest with
          | .ok (yes, .sign ":" :: rest) =>
              let (no, rest) ← choice fuel rest
              return (.choice test yes no, rest)
          | .ok _ => .error "expecting ':'"
          | .error m => .error m
      | rest => return (test, rest)

/-- Reads an assignment, or an expression without one. -/
def assignment : Nat → List Token → Parsed
  | 0, _ => .error "expecting primary"
  | fuel + 1, .name s :: .sign a :: rest =>
      match assignment? a with
      | some sign => (assignment fuel rest).map fun (e, rest) => (.assign s sign e, rest)
      | none => choice fuel (.name s :: .sign a :: rest)
  | fuel + 1, ts => choice fuel ts

end

/-- Reads a whole expression. -/
def parse (s : String) : Except String Expression :=
  match tokens? 0 s.toList with
  | none => .error "expecting EOF"
  | some ts =>
      match assignment (4 * ts.length + 4) ts with
      | .ok (e, []) => .ok e
      | .ok (_, _ :: _) => .error "expecting EOF"
      | .error m => .error m

def truth (b : Bool) : Int := if b then 1 else 0

/-- The bits of a number, read without a sign. -/
def bits (n : Int) : Nat := (n % 18446744073709551616).toNat

/-- Applies the sign of a calculation; `none` if it divides by zero. -/
def apply (s : String) (a b : Int) : Option Int :=
  match s with
  | "*" => some (wrap (a * b))
  | "/" => if b = 0 then none else some (wrap (Int.tdiv a b))
  | "%" => if b = 0 then none else some (wrap (Int.tmod a b))
  | "+" => some (wrap (a + b))
  | "-" => some (wrap (a - b))
  | "<<" => some (wrap (a * (1 <<< (bits b % 64) : Nat)))
  | ">>" => some (Int.fdiv a (1 <<< (bits b % 64) : Nat))
  | "<" => some (truth (a < b))
  | ">" => some (truth (b < a))
  | "<=" => some (truth (a ≤ b))
  | ">=" => some (truth (b ≤ a))
  | "==" => some (truth (a = b))
  | "!=" => some (truth (a ≠ b))
  | "&" => some (wrap (bits a &&& bits b : Nat))
  | "^" => some (wrap (bits a ^^^ bits b : Nat))
  | "|" => some (wrap (bits a ||| bits b : Nat))
  | _ => none

def applyUnary (s : String) (a : Int) : Int :=
  match s with
  | "-" => wrap (-a)
  | "~" => -a - 1
  | "!" => truth (a = 0)
  | _ => a

/-- The number that a whole text spells, blanks around it apart; an empty text spells 0. -/
def number? (s : String) : Option Int :=
  let isBlank (c : Char) : Bool := c = ' ' || c = '\t' || c = '\n' || c = '\r'
  let cs := ((s.toList.dropWhile isBlank).reverse.dropWhile isBlank).reverse
  let natural (cs : List Char) : Option Int :=
    let (n, length) := numberAhead cs
    if length = cs.length && length ≠ 0 then some n else none
  match cs with
  | [] => some 0
  | '-' :: rest => (natural rest).map (-·)
  | '+' :: rest => natural rest
  | cs => natural cs

/-- Why an expression has no value. -/
inductive Failure where
  | divisionByZero
  /-- The value of a variable is no number. -/
  | notANumber (value : String)
  deriving DecidableEq, Repr

/-- Values of variables, the latest first. -/
abbrev Bindings := List (String × Int)

/-- The value of a variable; `lookUp` gives those that were not set here. -/
def valueOfVariable (lookUp : String → String) (set : Bindings) (name : String) :
    Except Failure Int :=
  match set.lookup name with
  | some n => .ok n
  | none =>
      match number? (lookUp name) with
      | some n => .ok n
      | none => .error (.notANumber (lookUp name))

/-- Applies a sign, unless it divides by zero. -/
def calculate (s : String) (a b : Int) : Except Failure Int :=
  match apply s a b with
  | some r => .ok r
  | none => .error .divisionByZero

/-- Calculates an expression, and says which variables it has set. -/
def evaluate (lookUp : String → String) : Expression → Bindings → Except Failure (Int × Bindings)
  | .number n, set => .ok (n, set)
  | .reference name, set => return (← valueOfVariable lookUp set name, set)
  | .unary s e, set => do
      let (a, set) ← evaluate lookUp e set
      return (applyUnary s a, set)
  | .binary s a b, set => do
      let (m, set) ← evaluate lookUp a set
      let (n, set) ← evaluate lookUp b set
      return (← calculate s m n, set)
  | .both a b, set => do
      let (m, set) ← evaluate lookUp a set
      if m = 0 then return (0, set)
      else
        let (n, set) ← evaluate lookUp b set
        return (truth (n ≠ 0), set)
  | .either a b, set => do
      let (m, set) ← evaluate lookUp a set
      if m ≠ 0 then return (1, set)
      else
        let (n, set) ← evaluate lookUp b set
        return (truth (n ≠ 0), set)
  | .choice test yes no, set => do
      let (m, set) ← evaluate lookUp test set
      if m ≠ 0 then evaluate lookUp yes set else evaluate lookUp no set
  | .assign name none e, set => do
      let (n, set) ← evaluate lookUp e set
      return (n, (name, n) :: set)
  | .assign name (some s) e, set => do
      let (n, set) ← evaluate lookUp e set
      let r ← calculate s (← valueOfVariable lookUp set name) n
      return (r, (name, r) :: set)

end Docset.Shell.Arithmetic
