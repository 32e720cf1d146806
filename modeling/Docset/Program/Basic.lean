import Docset.Files.Folders

/-!
# Programs

The programs that scripts are written with. A program is started with arguments,
an environment, something to read and the files as they are. It ends with a status,
with what it wrote to its two channels, and with the files as it left them. It is a
function: nothing else can pass between it and the outside.
-/
namespace Docset

namespace Program

/-- What a program is started with. -/
structure Call where
  /-- The name that it was called by. -/
  name : String
  args : List String
  environment : List (String × String) := []
  /-- What there is to read on standard input. -/
  input : ByteArray := .empty
  /-- Standard input is a file: what was read of it in vain can be given back. -/
  seekable : Bool := false
  /-- Why standard input cannot be read. -/
  inputFault : Option IoError := none
  /-- The file that standard output goes to, if it is one. -/
  output : Option Location := none
  files : FileSystem

inductive Channel where
  | output
  | errors
  deriving DecidableEq, Repr

/-- What a program leaves behind. -/
structure Outcome where
  status : Nat := 0
  /-- What was written, the latest first. -/
  writes : List (Channel × ByteArray) := []
  /-- How much of the input was read. -/
  consumed : Nat := 0
  files : FileSystem

end Program

abbrev Program := Program.Call → Program.Outcome

namespace Program

/-- A program that has done nothing yet. -/
def Call.begin (c : Call) : Outcome := { files := c.files }

namespace Outcome

def sayBytes (o : Outcome) (bytes : ByteArray) : Outcome :=
  { o with writes := (.output, bytes) :: o.writes }

def say (o : Outcome) (text : String) : Outcome := o.sayBytes text.toUTF8

/-- Writes a line to standard error. -/
def warn (o : Outcome) (message : String) : Outcome :=
  { o with writes := (.errors, (message ++ "\n").toUTF8) :: o.writes }

/-- Writes a line to standard error, and fails with a status. -/
def fail (o : Outcome) (status : Nat) (message : String) : Outcome :=
  { o.warn message with status }

end Outcome

/-- Fails for one reason with the status 1. -/
def Call.refuse (c : Call) (message : String) : Outcome :=
  c.begin.fail 1 (c.name ++ ": " ++ message)

/-- Fails because the program was called in the wrong way. -/
def Call.misuse (c : Call) (message : String) (status : Nat := 1) : Outcome :=
  (c.begin.warn (c.name ++ ": " ++ message)).fail status
    ("Try '" ++ c.name ++ " --help' for more information.")

/-! ## Options -/

/-- The options and operands of a call. -/
structure Options where
  flags : List Char := []
  /-- Options with a value, the latest first. -/
  values : List (Char × String) := []
  operands : List String := []

def Options.has (o : Options) (c : Char) : Bool := o.flags.contains c

def Options.value? (o : Options) (c : Char) : Option String := o.values.lookup c

/-- Reads the letters of one argument. The last of them may want the next argument as its value:
then that option is given back. -/
def readLetters (known valued : List Char) (o : Options) :
    List Char → Except Char (Options × Option Char)
  | [] => .ok (o, none)
  | c :: rest =>
      if valued.contains c then
        if rest.isEmpty then .ok (o, some c)
        else .ok ({ o with values := (c, String.ofList rest) :: o.values }, none)
      else if known.contains c then
        readLetters known valued { o with flags := o.flags ++ [c] } rest
      else .error c

/-- Sorts arguments into options and operands, which may be mixed. -/
def readOptions (c : Call) (known valued : List Char) (o : Options) :
    List String → Except Outcome Options
  | [] => .ok { o with operands := o.operands.reverse }
  | "--" :: rest => .ok { o with operands := o.operands.reverse ++ rest }
  | arg :: rest =>
      match arg.toList with
      | '-' :: '-' :: _ => .error (c.misuse ("unrecognized option '" ++ arg ++ "'"))
      | '-' :: letter :: letters =>
          match readLetters known valued o (letter :: letters) with
          | .error bad => .error (c.misuse ("invalid option -- '" ++ bad.toString ++ "'"))
          | .ok (o, none) => readOptions c known valued o rest
          | .ok (o, some wanting) =>
              match rest with
              | value :: rest =>
                  readOptions c known valued { o with values := (wanting, value) :: o.values } rest
              | [] =>
                  .error (c.misuse ("option requires an argument -- '" ++ wanting.toString ++ "'"))
      | _ => readOptions c known valued { o with operands := arg :: o.operands } rest

/-- Runs a program on its options. -/
def withOptions (known valued : String) (run : Call → Options → Outcome) : Program := fun c =>
  match readOptions c known.toList valued.toList {} c.args with
  | .ok o => run c o
  | .error o => o

/-! ## Bytes as text -/

/-- Bytes as characters, one for each. -/
def chars (bytes : ByteArray) : List Char := bytes.toList.map fun b => Char.ofNat b.toNat

/-- The bytes of such characters. -/
def ofChars (cs : List Char) : ByteArray := ⟨(cs.map fun c => UInt8.ofNat c.toNat).toArray⟩

/-- The bytes of a text as characters, one for each. -/
def textChars (s : String) : List Char := chars s.toUTF8

/-- Lines without their line breaks; `line` holds the line at hand, last character first. -/
def cutLines (line : List Char) : List Char → List (List Char)
  | [] => if line.isEmpty then [] else [line.reverse]
  | c :: rest => if c = '\n' then line.reverse :: cutLines [] rest else cutLines (c :: line) rest

def lines (bytes : ByteArray) : List (List Char) := cutLines [] (chars bytes)

/-- Lines with their line breaks. -/
def unlines (ls : List (List Char)) : ByteArray := ofChars (ls.flatMap (· ++ ['\n']))

/-- Goes through operands one by one. -/
def each (o : Outcome) (operands : List String) (f : Outcome → String → Outcome) : Outcome :=
  operands.foldl f o

/-- What an operand names to be read: a file, or standard input for a dash. -/
def Call.contents (c : Call) (operand : String) : Except IoError ByteArray :=
  if operand = "-" || operand = "/dev/stdin" then
    match c.inputFault with
    | some e => .error e
    | none => .ok c.input
  else c.files.read ⟨operand⟩

/-- Runs a program on the contents of its operands, or on its input if there are none. An operand
that cannot be read is complained about. -/
def filter (c : Call) (operands : List String) (complaint : String → IoError → String)
    (run : Outcome → String → ByteArray → Outcome) : Outcome :=
  let operands := if operands.isEmpty then ["-"] else operands
  let o := each c.begin operands fun o operand =>
    match c.contents operand with
    | .ok bytes => run o operand bytes
    | .error e => o.fail 1 (c.name ++ ": " ++ complaint operand e)
  if operands.contains "-" then { o with consumed := c.input.size } else o

/-- Gives back what was read in vain, where that is possible, after only so much was needed. -/
def Call.giveBack (c : Call) (needed : Nat) (o : Outcome) : Outcome :=
  if c.seekable && o.consumed ≠ 0 then { o with consumed := min needed o.consumed } else o

/-- The number that decimal digits write. -/
def natural? (s : String) : Option Nat :=
  if s ≠ "" && s.toList.all Char.isDigit then s.toNat? else none

end Program

end Docset
