import Docset.Program.Quoting
import Docset.Shell.Arithmetic

/-!
# Programs that write their arguments

`echo` writes its arguments with blanks between them; `printf` fills them into a
format, which it uses again as long as arguments are left. Both know escapes: a
backslash with a letter or octal digits for one byte, and `\c` for the end of all
output.
-/
namespace Docset.Program

/-- What has been read of an escape. -/
inductive Escape where
  | none
  /-- A backslash was read. -/
  | begun
  /-- Octal digits were read; so many more of them may follow. -/
  | octal (value more : Nat)
  deriving DecidableEq, Repr

namespace Escape

def octalDigit? (c : Char) : Option Nat :=
  if '0' ≤ c ∧ c ≤ '7' then some (c.toNat - '0'.toNat) else Option.none

/-- The bytes of an escape that the text breaks off. -/
def flush : Escape → List UInt8
  | none => []
  | begun => [92]
  | octal value _ => [UInt8.ofNat value]

/-- A character outside escapes. -/
def plain (c : Char) : List UInt8 × Escape :=
  if c = '\\' then ([], begun) else (String.utf8EncodeChar c, none)

/-- The byte that a backslash and one letter stand for. -/
def short? (c : Char) : Option UInt8 :=
  [('\\', 92), ('a', 7), ('b', 8), ('e', 27), ('f', 12), ('n', 10), ('r', 13), ('t', 9),
    ('v', 11)].lookup c

/-- One character further. Where `longZero` is set, a zero may have three more digits after it. -/
def next (longZero : Bool) (e : Escape) (c : Char) : List UInt8 × Escape :=
  match e, octalDigit? c with
  | none, _ => plain c
  | begun, some digit => ([], octal digit (if longZero && digit = 0 then 3 else 2))
  | begun, Option.none =>
      match short? c with
      | some b => ([b], none)
      | Option.none => (92 :: String.utf8EncodeChar c, none)
  | octal value (more + 1), some digit => ([], octal (value * 8 + digit) more)
  | octal value _, _ =>
      let (bytes, e) := plain c
      (UInt8.ofNat value :: bytes, e)

end Escape

/-- Replaces escapes, and says whether all output ends here. Only where `longZero` is set can it
end. -/
def unescape (longZero : Bool) (e : Escape) : List Char → List UInt8 × Bool
  | [] => (e.flush, false)
  | c :: rest =>
      if longZero && e = .begun && c = 'c' then ([], true)
      else
        let (bytes, e) := e.next longZero c
        let (more, ended) := unescape longZero e rest
        (bytes ++ more, ended)

/-- What `echo` writes, escapes replaced. -/
def echoBytes (args : List String) : ByteArray :=
  let (newline, words) : List UInt8 × List String :=
    match args with
    | "-n" :: words => ([], words)
    | words => ([10], words)
  let (text, ended) := unescape true .none (" ".intercalate words).toList
  ⟨(if ended then text else text ++ newline).toArray⟩

/-- The program of that name, which replaces escapes only on demand. -/
def echo : Program := fun c =>
  let isOption (s : String) : Bool :=
    match s.toList with
    | '-' :: letter :: letters => (letter :: letters).all fun l => "neE".toList.contains l
    | _ => false
  let flags := (c.args.takeWhile isOption).flatMap String.toList
  let words := " ".intercalate (c.args.dropWhile isOption)
  let escapes := (flags.reverse.find? fun l => l = 'e' || l = 'E') = some 'e'
  let (text, ended) :=
    if escapes then unescape true .none words.toList else (words.toUTF8.toList, false)
  let newline : List UInt8 := if ended || flags.contains 'n' then [] else [10]
  c.begin.sayBytes ⟨(text ++ newline).toArray⟩

/-! ## Formats -/

/-- A place in a format that an argument is filled into. -/
structure Directive where
  flags : List Char := []
  width : Option Nat := none
  precision : Option Nat := none
  letter : Char
  deriving DecidableEq, Repr

namespace Directive

def fill (n : Nat) (c : Char) : List Char := List.replicate n c

/-- Brings a text to the width asked for. -/
def pad (d : Directive) (text : List UInt8) : List UInt8 :=
  let missing := List.replicate ((d.width.getD 0) - text.length) (32 : UInt8)
  if d.flags.contains '-' then text ++ missing else missing ++ text

def string (d : Directive) (text : List UInt8) : List UInt8 :=
  d.pad (match d.precision with
    | some n => text.take n
    | none => text)

/-- The digits of a number in the base that the letter stands for. -/
def digits (d : Directive) (n : Nat) : List Char :=
  if d.letter = 'x' then Nat.toDigits 16 n
  else if d.letter = 'X' then (Nat.toDigits 16 n).map Char.toUpper
  else if d.letter = 'o' then Nat.toDigits 8 n
  else Nat.toDigits 10 n

/-- The sign in front of a number. -/
def sign (d : Directive) (n : Int) : List Char :=
  if d.letter = 'd' || d.letter = 'i' then
    if n < 0 then ['-'] else if d.flags.contains '+' then ['+']
    else if d.flags.contains ' ' then [' '] else []
  else if d.flags.contains '#' && n ≠ 0 then
    if d.letter = 'o' then ['0']
    else if d.letter = 'x' then ['0', 'x']
    else if d.letter = 'X' then ['0', 'X'] else []
  else []

def number (d : Directive) (n : Int) : List UInt8 :=
  let signed := d.letter = 'd' || d.letter = 'i'
  let digits := d.digits (if signed then n.natAbs else Shell.Arithmetic.bits n)
  let digits := if d.precision = some 0 && n = 0 then [] else digits
  let digits := fill ((d.precision.getD 0) - digits.length) '0' ++ digits
  let sign := d.sign n
  let zeros :=
    if d.flags.contains '0' && !d.flags.contains '-' && d.precision.isNone then
      fill ((d.width.getD 0) - sign.length - digits.length) '0'
    else []
  d.pad (String.ofList (sign ++ zeros ++ digits)).toUTF8.toList

end Directive

/-- What can be wrong with a format or with what is filled into it. -/
inductive FormatError where
  | notNumeric (argument : String)
  | notWhole (argument : String)
  | outOfRange (argument : String)
  | noDirective (spelling : String)
  | noCharacter
  deriving DecidableEq, Repr

namespace FormatError

/-- What the command of the shell says. -/
def message : FormatError → String
  | notNumeric s => s ++ ": expected numeric value"
  | notWhole s => s ++ ": not completely converted"
  | outOfRange s => s ++ ": Numerical result out of range"
  | noDirective s => s ++ ": invalid directive"
  | noCharacter => "missing format character"

/-- What the program says. -/
def programMessage : FormatError → String
  | notNumeric s => quote s ++ ": expected a numeric value"
  | notWhole s => quote s ++ ": value not completely converted"
  | outOfRange s => quote s ++ ": Numerical result out of range"
  | noDirective s => s ++ ": invalid conversion specification"
  | noCharacter => "%: invalid conversion specification"

end FormatError

/-- The number that an argument spells, and what is wrong with it. A quote in front of a character
stands for its code. -/
def argumentNumber (s : String) : Int × Option FormatError :=
  let spelled (cs : List Char) (negative : Bool) : Int × Option FormatError :=
    let (n, length) := Shell.Arithmetic.numberAhead cs
    let value := if negative then -n else n
    if length = 0 then (0, some (.notNumeric s))
    else if length < cs.length then (value, some (.notWhole s))
    else if cs.all Char.isDigit && n ≠ (cs.foldl (fun n c => n * 10 + (c.toNat - 48)) 0 : Nat) &&
        cs.head? ≠ some '0' then
      (value, some (.outOfRange s))
    else (value, none)
  match s.toList.dropWhile (· = ' ') with
  | [] => (0, none)
  | '\'' :: c :: _ => (c.toNat, none)
  | '"' :: c :: _ => (c.toNat, none)
  | '-' :: cs => spelled cs true
  | '+' :: cs => spelled cs false
  | cs => spelled cs false

/-- What a format has written so far. -/
structure Printed where
  bytes : List UInt8 := []
  complaints : List FormatError := []
  /-- Arguments not used yet. -/
  args : List String := []
  /-- All output has ended. -/
  ended : Bool := false
  /-- The format itself is wrong. -/
  bad : Bool := false
  /-- Whether a directive was met. -/
  used : Bool := false

namespace Printed

def add (p : Printed) (bytes : List UInt8) : Printed := { p with bytes := p.bytes ++ bytes }

/-- Takes the next argument as a number for a width. -/
def natArgument (p : Printed) : Int × Printed :=
  match p.args with
  | [] => (0, p)
  | s :: rest =>
      let (n, complaint) := argumentNumber s
      (n, { p with args := rest, complaints := p.complaints ++ complaint.toList })

/-- Fills in the next argument. -/
def fill (p : Printed) (d : Directive) : Printed :=
  let arg := p.args.head?.getD ""
  let p := { p with args := p.args.drop 1, used := true }
  if d.letter = 's' then p.add (d.string arg.toUTF8.toList)
  else if d.letter = 'c' then p.add (d.string (arg.toUTF8.toList.take 1))
  else if d.letter = 'b' then
    let (bytes, ended) := unescape true .none arg.toList
    { p.add (d.string bytes) with ended }
  else
    let (n, complaint) := argumentNumber arg
    { p with complaints := p.complaints ++ complaint.toList }.add (d.number n)

end Printed

/-- Where in a format the reading stands. -/
inductive Formatting where
  /-- Outside directives, with the text since the last one, last character first. -/
  | text (run : List Char)
  /-- In a directive: after the sign, in its width, or in its precision. The spelling is kept, last
  character first. -/
  | flags (d : Directive) (spelling : List Char)
  | width (d : Directive) (spelling : List Char)
  | precision (d : Directive) (spelling : List Char)

/-- Ends a stretch of text. -/
def Printed.addText (p : Printed) (run : List Char) : Printed :=
  p.add (unescape false .none run.reverse).1

/-- Ends a directive with its letter; `none` if there is no such directive. -/
def Printed.finish? (p : Printed) (d : Directive) (letter : Char) : Option Printed :=
  if "sdiuxXocb".toList.contains letter then some (p.fill { d with letter }) else none

/-- A digit more in a width or precision. -/
def moreDigits (n : Option Nat) (c : Char) : Option Nat :=
  some (n.getD 0 * 10 + (c.toNat - '0'.toNat))

/-- Sets a width from an argument; a negative one asks for the other side. -/
def Directive.setWidth (d : Directive) (n : Int) : Directive :=
  if n < 0 then { d with width := some n.natAbs, flags := '-' :: d.flags }
  else { d with width := some n.natAbs }

namespace Formatting

/-- The end of a directive. One that there is not ends all output. -/
def ending (p : Printed) (d : Directive) (spelling : List Char) (c : Char) : Printed × Formatting :=
  match p.finish? d c with
  | some p => (p, text [])
  | none =>
      let spelled := String.ofList (c :: spelling).reverse
      ({ p with
          complaints := p.complaints ++ [.noDirective spelled]
          ended := true
          bad := true }, text [])

/-- In the width of a directive, or right before it. -/
def inWidth (p : Printed) (d : Directive) (spelling : List Char) (c : Char) :
    Printed × Formatting :=
  if c.isDigit then (p, width { d with width := moreDigits d.width c } (c :: spelling))
  else if c = '*' then
    let (n, p) := p.natArgument
    ({ p with used := true }, width (d.setWidth n) (c :: spelling))
  else if c = '.' then (p, precision { d with precision := some 0 } (c :: spelling))
  else ending p d spelling c

/-- One character further in a format. -/
def next (p : Printed) (f : Formatting) (c : Char) : Printed × Formatting :=
  match f with
  | text run =>
      if c = '%' then (p.addText run, flags { letter := ' ' } ['%']) else (p, text (c :: run))
  | flags d spelling =>
      if c = '%' && spelling = ['%'] then (p, text ['%'])
      else if "#-+ 0".toList.contains c then
        (p, flags { d with flags := c :: d.flags } (c :: spelling))
      else inWidth p d spelling c
  | width d spelling => inWidth p d spelling c
  | precision d spelling =>
      if c.isDigit then
        (p, precision { d with precision := moreDigits d.precision c } (c :: spelling))
      else if c = '*' then
        let (n, p) := p.natArgument
        (p, precision { d with precision := some n.toNat } (c :: spelling))
      else ending p d spelling c

/-- The end of a format. -/
def finish (p : Printed) : Formatting → Printed
  | text run => p.addText run
  | _ =>
      { p with
        complaints := p.complaints ++ [.noCharacter]
        ended := true
        bad := true }

end Formatting

/-- Goes through a format once. -/
def format (p : Printed) (f : Formatting) : List Char → Printed
  | [] => f.finish p
  | c :: rest =>
      let (p, f) := f.next p c
      if p.ended then p else format p f rest

/-- Uses a format again as long as it takes up arguments. -/
def formatAll (pattern : List Char) : Nat → Printed → Printed
  | 0, p => p
  | n + 1, p =>
      let p := format { p with used := false } (.text []) pattern
      if p.ended || p.args.isEmpty || !p.used then p else formatAll pattern n p

/-- What `printf` writes, and what it complains about. -/
def printed (pattern : String) (args : List String) : Printed :=
  formatAll pattern.toList (args.length + 1) { args }

/-- The program of that name. -/
def print : Program := fun c =>
  match if c.args.head? = some "--" then c.args.drop 1 else c.args with
  | [] => c.misuse "missing operand"
  | pattern :: args =>
      let p := printed pattern args
      let o := p.complaints.foldl (fun o e => o.fail 1 (c.name ++ ": " ++ e.programMessage)) c.begin
      let o :=
        match p.args with
        | extra :: _ =>
            if p.ended then o
            else o.warn (c.name ++ ": warning: ignoring excess arguments, starting with " ++
              quote extra)
        | [] => o
      o.sayBytes ⟨p.bytes.toArray⟩

end Docset.Program
