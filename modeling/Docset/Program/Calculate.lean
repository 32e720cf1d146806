import Docset.Program.Condition
import Docset.Program.Expression
import Docset.Program.Quoting

/-!
# Calculating with arguments

The program `expr` takes its arguments for the signs and numbers of an expression
and writes its value. It fails if that is zero or empty.
-/
namespace Docset.Program.Calculate

/-- Why an expression has no value. -/
inductive Failure where
  | missing (after : String)
  | unexpected (word : String)
  | notInteger
  | divisionByZero
  | unclosed (after : String)
  | invalid (message : String)

def Failure.message : Failure → String
  | missing after => "syntax error: missing argument after " ++ quote after
  | unexpected word => "syntax error: unexpected argument " ++ quote word
  | notInteger => "non-integer argument"
  | divisionByZero => "division by zero"
  | unclosed after => "syntax error: expecting ')' after " ++ quote after
  | invalid message => message

/-- How strongly a sign binds. -/
def strength? (sign : String) : Option Nat :=
  if sign = "|" then some 0
  else if sign = "&" then some 1
  else if ["<", "<=", "=", "==", "!=", ">=", ">"].contains sign then some 2
  else if ["+", "-"].contains sign then some 3
  else if ["*", "/", "%"].contains sign then some 4
  else if sign = ":" then some 5
  else none

def integer? (s : String) : Option Int :=
  if s.toList.all fun c => c.isDigit || c = '-' then Condition.integer? s else none

def integer (s : String) : Except Failure Int :=
  match integer? s with
  | some n => .ok n
  | none => .error .notInteger

/-- Whether a value counts as nothing. -/
def isNull (s : String) : Bool := s = "" || integer? s = some 0

/-- What a match at the start of a text gives: its first group, or its length. -/
def matchStart (text pattern : String) : Except Failure String :=
  let cs := textChars text
  match Expression.parse false (textChars pattern) with
  | .error message => .error (.invalid message)
  | .ok e =>
      let grouped := ["\\("].any fun g => (pattern.splitOn g).length ≠ 1
      match Expression.longest? (e.ways false cs.toArray { position := 0 }) with
      | none => .ok (if grouped then "" else "0")
      | some w =>
          if grouped then
            let (first, last) := (w.groups.lookup 1).getD (0, 0)
            .ok (String.ofList ((cs.take last).drop first))
          else .ok (toString w.position)

def compare (sign : String) (a b : String) : Bool :=
  let order : Ordering :=
    match integer? a, integer? b with
    | some m, some n => Ord.compare m n
    | _, _ => Ord.compare a b
  match sign with
  | "<" => order = .lt
  | "<=" => order ≠ .gt
  | "!=" => order ≠ .eq
  | ">=" => order ≠ .lt
  | ">" => order = .gt
  | _ => order = .eq

def combine (sign a b : String) : Except Failure String := do
  match strength? sign with
  | some 0 => return if !isNull a then a else if isNull b then "0" else b
  | some 1 => return if isNull a || isNull b then "0" else a
  | some 2 => return if compare sign a b then "1" else "0"
  | some 5 => matchStart a b
  | _ =>
      let m ← integer a
      let n ← integer b
      match sign with
      | "+" => return toString (m + n)
      | "-" => return toString (m - n)
      | "*" => return toString (m * n)
      | _ =>
          if n = 0 then throw .divisionByZero
          return toString (if sign = "/" then m.tdiv n else m.tmod n)

/-- A value and the words that are left. -/
abbrev Parsed := Except Failure (String × List String)

mutual

/-- A word, a group or a function of words; `last` is the word before. -/
def primary : Nat → String → List String → Parsed
  | 0, last, _ => .error (.missing last)
  | _, last, [] => .error (.missing last)
  | fuel + 1, _, word :: rest =>
      match word, rest with
      | "(", _ => do
          let (value, rest) ← operation fuel 0 "(" rest
          match rest with
          | ")" :: rest => return (value, rest)
          | _ => throw (.unclosed value)
      | ")", _ => .error (.unexpected ")")
      | "+", quoted :: rest => .ok (quoted, rest)
      | "length", text :: rest => .ok (toString text.utf8ByteSize, rest)
      | "match", text :: pattern :: rest => (matchStart text pattern).map (·, rest)
      | "index", text :: set :: rest =>
          let found := text.toList.findIdx? set.toList.contains
          .ok (toString ((found.map (· + 1)).getD 0), rest)
      | "substr", text :: start :: count :: rest =>
          let part :=
            match natural? start, natural? count with
            | some (m + 1), some n => String.ofList ((text.toList.drop m).take n)
            | _, _ => ""
          .ok (part, rest)
      | word, rest => .ok (word, rest)

/-- An expression whose signs bind at least so strongly. -/
def operation : Nat → Nat → String → List String → Parsed
  | 0, _, last, _ => .error (.missing last)
  | fuel + 1, least, last, words => do
      let (value, rest) ← primary fuel last words
      following fuel least value rest

def following : Nat → Nat → String → List String → Parsed
  | 0, _, value, rest => .ok (value, rest)
  | fuel + 1, least, value, rest =>
      match rest with
      | sign :: more =>
          match (strength? sign).filter (least ≤ ·) with
          | some strength => do
              let (second, rest) ← operation fuel (strength + 1) sign more
              following fuel least (← combine sign value second) rest
          | none => .ok (value, rest)
      | [] => .ok (value, [])

end

/-- The program of that name. -/
def run : Program := fun c =>
  let args := if c.args.head? = some "--" then c.args.drop 1 else c.args
  if args.isEmpty then c.misuse "missing operand" 2
  else
    match operation (4 * args.length + 4) 0 "" args with
    | .error e => c.begin.fail 2 (c.name ++ ": " ++ e.message)
    | .ok (_, word :: _) => c.begin.fail 2 (c.name ++ ": " ++ (Failure.unexpected word).message)
    | .ok (value, []) =>
        { c.begin.say (value ++ "\n") with status := if isNull value then 1 else 0 }

end Docset.Program.Calculate
