import Docset.Program.Files
import Docset.Shell.Pattern

/-!
# Programs that work on text

They read files or, without operands, standard input, and write what they make of
the bytes. A line is what a line break ends; the last one may lack it. Characters
are bytes.
-/
namespace Docset.Program

def unopened (operand : String) (e : IoError) : String :=
  "cannot open " ++ inQuotes operand ++ " for reading: " ++ e.reason

/-- How a file is complained about that cannot be read. -/
def unread (operand : String) (e : IoError) : String := shownName operand ++ ": " ++ e.reason

/-- A number at the right of a column. -/
def alignRight (width : Nat) (n : Nat) : String :=
  let digits := toString n
  String.ofList (List.replicate (width - digits.length) ' ') ++ digits

/-! ## Whole texts -/

/-- Lines with numbers in front. -/
def numbered (skipEmpty : Bool) (next : Nat) : List (List Char) → List (List Char)
  | [] => []
  | l :: rest =>
      if skipEmpty && l.isEmpty then l :: numbered skipEmpty next rest
      else ((alignRight 6 next ++ "\t").toList ++ l) :: numbered skipEmpty (next + 1) rest

/-- Whether an operand names the file that output goes to, which has something in it. -/
def isOutput (c : Call) (operand : String) : Bool :=
  match c.files.stat ⟨operand⟩ with
  | .ok (place, .file bytes _) => c.output = some place && !bytes.isEmpty
  | _ => false

def concatenate : Program := withOptions "nbsuetvAET" "" fun c o =>
  filter c o.operands unread fun out operand bytes =>
    if isOutput c operand then
      out.fail 1 (c.name ++ ": " ++ shownName operand ++ ": input file is output file")
    else if o.has 'n' || o.has 'b' then
      out.sayBytes (unlines (numbered (o.has 'b') 1 (lines bytes)))
    else out.sayBytes bytes

def backward : Program := withOptions "" "" fun c o =>
  filter c o.operands (fun operand e => "failed to open " ++ inQuotes operand ++ " for reading: " ++
    e.reason) fun out _ bytes => out.sayBytes (unlines (lines bytes).reverse)

def reverseEach : Program := withOptions "" "" fun c o =>
  filter c o.operands unopened fun out _ bytes =>
    out.sayBytes (unlines ((lines bytes).map List.reverse))

/-- Copies the input to files and to the output. -/
def tee : Program := withOptions "ai" "" fun c o =>
  let out := each c.begin o.operands fun out operand =>
    if operand = "/dev/stderr" then { out with writes := (.errors, c.input) :: out.writes }
    else if operand = "/dev/stdout" then out.sayBytes c.input
    else
      let old := if o.has 'a' then (out.files.read ⟨operand⟩).toOption.getD .empty else .empty
      out.orComplain ((out.files.write ⟨operand⟩ (old ++ c.input)).mapError fun e =>
        c.name ++ ": " ++ shownName operand ++ ": " ++ e.reason)
  { out.sayBytes c.input with consumed := c.input.size }

/-! ## Parts of texts -/

/-- How much of a text is wanted: so many lines or bytes from one side, or all but so many. -/
structure Amount where
  count : Nat
  bytes : Bool := false
  /-- All but the amount, seen from the other side. -/
  rest : Bool := false
  deriving DecidableEq, Repr

/-- Lines with their line breaks, where they have one. -/
def wholeLines (line : List Char) : List Char → List (List Char)
  | [] => if line.isEmpty then [] else [line.reverse]
  | c :: rest =>
      if c = '\n' then (c :: line).reverse :: wholeLines [] rest else wholeLines (c :: line) rest

def Amount.first (a : Amount) (bytes : ByteArray) : ByteArray :=
  let keep {α : Type} (items : List α) : List α :=
    items.take (if a.rest then items.length - a.count else a.count)
  if a.bytes then ofChars (keep (chars bytes))
  else ofChars (keep (wholeLines [] (chars bytes))).flatten

def Amount.last (a : Amount) (bytes : ByteArray) : ByteArray :=
  let keep {α : Type} (items : List α) : List α :=
    items.drop (if a.rest then a.count - 1 else items.length - a.count)
  if a.bytes then ofChars (keep (chars bytes))
  else ofChars (keep (wholeLines [] (chars bytes))).flatten

/-- Reads an amount; `sign` is the sign for the rest. -/
def amount? (sign : Char) (bytes : Bool) (s : String) : Option Amount :=
  match s.toList with
  | c :: digits =>
      if c = sign then (natural? (String.ofList digits)).map (⟨·, bytes, true⟩)
      else if c = '-' || c = '+' then (natural? (String.ofList digits)).map (⟨·, bytes, false⟩)
      else (natural? s).map (⟨·, bytes, false⟩)
  | [] => none

/-- Writes an old-style count as an option of its own: `-5` for `-n 5`. -/
def modernize : List String → List String
  | arg :: rest =>
      match arg.toList with
      | '-' :: d :: ds =>
          if (d :: ds).all Char.isDigit then "-n" :: String.ofList (d :: ds) :: rest
          else arg :: rest
      | _ => arg :: rest
  | [] => []

/-- Runs a program that shows one side of each text, under a title if there are several. -/
def side (sign : Char) (fromStart : Bool) (cut : Amount → ByteArray → ByteArray) : Program :=
  fun c =>
  let run : Program := withOptions "qvfz" "nc" fun c o =>
    let asked : Except String Amount :=
      match o.values with
      | (letter, s) :: _ =>
          match amount? sign (letter = 'c') s with
          | some a => .ok a
          | none =>
              .error ("invalid number of " ++ (if letter = 'c' then "bytes" else "lines") ++ ": " ++
                quote s)
      | [] => .ok { count := 10 }
    match asked with
    | .error message => c.refuse message
    | .ok a =>
        let titled := (1 < o.operands.length || o.has 'v') && !o.has 'q'
        let needed := if fromStart then (cut a c.input).size else c.input.size
        c.giveBack needed <| filter c o.operands unopened fun out operand bytes =>
          let name := if operand = "-" then "standard input" else operand
          let gap := if out.writes.any fun w => w.1 = .output then "\n" else ""
          let out := if titled then out.say (gap ++ "==> " ++ name ++ " <==\n") else out
          out.sayBytes (cut a bytes)
  run { c with args := modernize c.args }

def head : Program := side '-' true Amount.first

def tail : Program := side '+' false Amount.last

/-! ## Counting -/

structure Counts where
  lines : Nat := 0
  words : Nat := 0
  bytes : Nat := 0
  deriving DecidableEq, Repr

def isSpace (c : Char) : Bool := c = ' ' || ('\t' ≤ c && c ≤ '\r')

/-- What stands between blanks. -/
def wordsOf (cs : List Char) : List (List Char) := (Text.split isSpace cs).filter (!·.isEmpty)

def Counts.ofBytes (b : ByteArray) : Counts where
  lines := (chars b).count '\n'
  words := (wordsOf (chars b)).length
  bytes := b.size

def Counts.add (a b : Counts) : Counts :=
  ⟨a.lines + b.lines, a.words + b.words, a.bytes + b.bytes⟩

/-- The counts that are asked for. -/
def Counts.asked (o : Options) (k : Counts) : List Nat :=
  let all := !(o.has 'l' || o.has 'w' || o.has 'c' || o.has 'm')
  (if all || o.has 'l' then [k.lines] else []) ++ (if all || o.has 'w' then [k.words] else []) ++
    if all || o.has 'c' || o.has 'm' then [k.bytes] else []

/-- Counts in columns, and whose they are. -/
def countLine (width : Nat) (counts : List Nat) (name : String) : String :=
  " ".intercalate (counts.map (alignRight width)) ++ (if name = "" then "" else " " ++ name) ++ "\n"

def count : Program := withOptions "lwcmL" "" fun c o =>
  let operands := if o.operands.isEmpty then ["-"] else o.operands
  let found := operands.filterMap fun operand =>
    (c.contents operand).toOption.map fun bytes => (operand, Counts.ofBytes bytes)
  let total : Counts := found.foldl (fun k p => k.add p.2) {}
  let single := (total.asked o).length = 1 && operands.length = 1
  let width :=
    if single then 1 else if operands.contains "-" then 7 else (toString total.bytes).length
  let out := filter c o.operands unread
    fun out operand bytes =>
      let name := if o.operands.isEmpty then "" else operand
      out.say (countLine width ((Counts.ofBytes bytes).asked o) name)
  if 1 < operands.length then out.say (countLine width (total.asked o) "total") else out

/-! ## Replacing characters -/

/-- The character of an escape, and how many characters it takes after the backslash. -/
def escaped (cs : List Char) : Char × Nat :=
  let digits := (cs.take 3).takeWhile fun c => '0' ≤ c && c ≤ '7'
  if !digits.isEmpty then
    (Char.ofNat (digits.foldl (fun n c => n * 8 + (c.toNat - '0'.toNat)) 0 % 256), digits.length)
  else
    match cs with
    | c :: _ =>
        (([('n', '\n'), ('t', '\t'), ('r', '\r'), ('a', '\x07'), ('b', '\x08'), ('f', '\x0c'),
          ('v', '\x0b')].lookup c).getD c, 1)
    | [] => ('\\', 0)

/-- The characters between two, both included. -/
def between (a b : Char) : List Char :=
  (List.range (b.toNat + 1 - a.toNat)).map fun i => Char.ofNat (a.toNat + i)

/-- The characters of a class by name. -/
def classMembers (name : String) : List Char :=
  (between '\x00' (Char.ofNat 255)).filter (Shell.Pattern.isOfKind name)

/-- The class at the start of a text, after its bracket, and how many characters it takes. -/
def classAhead? (cs : List Char) : Option (List Char × Nat) :=
  match cs with
  | ':' :: rest =>
      let name := rest.takeWhile Char.isAlpha
      match rest.drop name.length with
      | ':' :: ']' :: _ => some (classMembers (String.ofList name), name.length + 3)
      | _ => none
  | _ => none

/-- The characters that a set lists: single ones, escapes, ranges and classes. The first number
counts characters that are already dealt with. -/
def charSet : (skip : Nat) → List Char → List Char
  | _, [] => []
  | skip + 1, _ :: rest => charSet skip rest
  | 0, '\\' :: rest =>
      let (c, n) := escaped rest
      c :: charSet n rest
  | 0, c :: rest =>
      match if c = '[' then classAhead? rest else none with
      | some (cs, n) => cs ++ charSet n rest
      | none =>
          match rest with
          | '-' :: last :: _ =>
              if last = '\\' then c :: charSet 0 rest else between c last ++ charSet 2 rest
          | _ => c :: charSet 0 rest

/-- Leaves only the first of characters that repeat, among those of a set. -/
def squeeze (set : List Char) : List Char → List Char
  | c :: d :: rest => if c = d && set.contains c then squeeze set (d :: rest)
      else c :: squeeze set (d :: rest)
  | cs => cs

/-- The character that a character is replaced by: the one at the same place in the second set,
or the last one there. -/
def replacement (first second : List Char) (c : Char) : Char :=
  match first.reverse.idxOf? c with
  | some i => (second[first.length - 1 - i]?).getD (second.getLast?.getD c)
  | none => c

def mapCharacters : Program := withOptions "dscCt" "" fun c o =>
  let set (s : String) : List Char :=
    let cs := charSet 0 (textChars s)
    if o.has 'c' || o.has 'C' then (between '\x00' (Char.ofNat 255)).filter (!cs.contains ·) else cs
  let plain (s : String) : List Char := charSet 0 (textChars s)
  let write (cs : List Char) : Outcome :=
    { c.begin.sayBytes (ofChars cs) with consumed := c.input.size }
  match o.operands with
  | [] => c.misuse "missing operand"
  | [first] =>
      if o.has 'd' then write ((chars c.input).filter (!(set first).contains ·))
      else if o.has 's' then write (squeeze (set first) (chars c.input))
      else
        ((c.begin.warn (c.name ++ ": missing operand after " ++ quote first)).warn
          "Two strings must be given when translating.").fail 1
          ("Try '" ++ c.name ++ " --help' for more information.")
  | first :: second :: _ =>
      let replaced := set first
      let into := plain second
      if o.has 'd' then write (squeeze into ((chars c.input).filter (!replaced.contains ·)))
      else
        let cs := (chars c.input).map (replacement replaced into)
        write (if o.has 's' then squeeze into cs else cs)

/-! ## Lines in order -/

/-- The number at the start of a line, in thousandths of thousandths, for comparison. -/
def leadingNumber (cs : List Char) : Int :=
  let cs := cs.dropWhile isSpace
  let (negative, cs) :=
    match cs with
    | '-' :: rest => (true, rest)
    | cs => (false, cs)
  let whole := cs.takeWhile Char.isDigit
  let fraction :=
    match cs.drop whole.length with
    | '.' :: rest => (rest.takeWhile Char.isDigit).take 6
    | _ => []
  let digits := whole ++ fraction ++ List.replicate (6 - fraction.length) '0'
  let n : Int := (digits.foldl (fun n c => n * 10 + (c.toNat - '0'.toNat)) 0 : Nat)
  if negative then -n else n

/-- The part of a line that it is sorted by: from one field on, to another if there is one. -/
def sortKey (o : Options) (l : List Char) : List Char :=
  match o.value? 'k' with
  | none => l
  | some spec =>
      let numbers := (Text.split (· = ',') spec.toList).map fun cs =>
        (natural? (String.ofList (cs.takeWhile Char.isDigit))).getD 1
      let first := numbers.head?.getD 1
      match o.value? 't' with
      | some sep =>
          let fields := Text.split (· = sep.toList.head?.getD '\t') l
          let fields := (fields.take (numbers[1]?.getD fields.length)).drop (first - 1)
          [sep.toList.head?.getD '\t'].intercalate fields
      | none =>
          let fields := wordsOf l
          let fields := (fields.take (numbers[1]?.getD fields.length)).drop (first - 1)
          [' '].intercalate fields

/-- Whether one line comes before another or may. -/
def sortLe (o : Options) (a b : List Char) : Bool :=
  let spec := ((o.value? 'k').getD "").toList
  let (ka, kb) := (sortKey o a, sortKey o b)
  let fold (cs : List Char) : List Char := if o.has 'f' then cs.map Char.toUpper else cs
  let numeric := o.has 'n' || spec.contains 'n'
  let less (x y : List Char) : Bool :=
    if numeric then decide (leadingNumber x < leadingNumber y) else decide (fold x < fold y)
  let flip := o.has 'r' || spec.contains 'r'
  let (before, after) := if flip then (less kb ka, less ka kb) else (less ka kb, less kb ka)
  if before then true
  else if after then false
  else if o.has 'u' || o.has 's' then true
  else if o.has 'r' then decide (¬ a < b) else decide (¬ b < a)

/-- Drops lines that count as the same as the one before. -/
def dropSame (same : List Char → List Char → Bool) : List (List Char) → List (List Char)
  | a :: b :: rest => if same a b then dropSame same (a :: rest) else a :: dropSame same (b :: rest)
  | ls => ls
termination_by ls => ls.length

def sort : Program := withOptions "nrusfb" "kto" fun c o =>
  let operands := if o.operands.isEmpty then ["-"] else o.operands
  let bad := operands.findSome? fun operand =>
    match c.contents operand with
    | .error e => some (operand, e)
    | .ok _ => none
  match bad with
  | some (operand, e) =>
      c.begin.fail 2 (c.name ++ ": cannot read: " ++ shownName operand ++ ": " ++ e.reason)
  | none =>
      let ls := operands.flatMap fun operand => lines ((c.contents operand).toOption.getD .empty)
      let sorted := ls.mergeSort (sortLe o)
      let same (a b : List Char) : Bool := sortLe o a b && sortLe o b a
      let result := unlines (if o.has 'u' then dropSame same sorted else sorted)
      let consumed := if operands.contains "-" then c.input.size else 0
      match o.value? 'o' with
      | some file =>
          let out := c.begin.orComplain ((c.files.write ⟨file⟩ result).mapError fun e =>
            c.name ++ ": open failed: " ++ file ++ ": " ++ e.reason)
          { out with consumed }
      | none => { c.begin.sayBytes result with consumed }

/-- Runs of equal lines, and how long they are. -/
def runs : List (List Char) → List (List Char × Nat)
  | [] => []
  | l :: rest =>
      match runs rest with
      | (m, n) :: more => if l = m then (m, n + 1) :: more else (l, 1) :: (m, n) :: more
      | [] => [(l, 1)]

def unique : Program := withOptions "cdui" "" fun c o =>
  filter c (o.operands.take 1) unread fun out _ bytes =>
    let kept := (runs (lines bytes)).filter fun (_, n) =>
      (!o.has 'd' || 1 < n) && (!o.has 'u' || n = 1)
    out.sayBytes (unlines (kept.map fun (l, n) =>
      if o.has 'c' then (alignRight 7 n ++ " ").toList ++ l else l))

/-! ## Columns -/

/-- The places that a list of numbers and ranges names. -/
def isListed (spec : String) (n : Nat) : Bool :=
  (Text.split (· = ',') spec.toList).any fun cs =>
    match Text.split (· = '-') cs with
    | [only] => natural? (String.ofList only) = some n
    | [first, last] =>
        (natural? (String.ofList first)).getD 1 ≤ n &&
          match natural? (String.ofList last) with
          | some m => n ≤ m
          | none => true
    | _ => false

/-- The items at listed places. -/
def listedItems {α : Type} (spec : String) (items : List α) : List α :=
  (items.zipIdx.filter fun p => isListed spec (p.2 + 1)).map (·.1)

/-- What is wrong with a list of places, in words for one kind of them. -/
def listMistake? (one many : String) (spec : String) : Option String :=
  let isBad (cs : List Char) : Bool := cs.any fun ch => !(ch.isDigit || ch = '-')
  let isZero (cs : List Char) : Bool := natural? (String.ofList cs) = some 0
  let items := Text.split (· = ',') spec.toList
  match items.find? isBad with
  | some cs => some ("invalid " ++ one ++ " " ++ quote (String.ofList cs))
  | none =>
      if items.any fun cs => cs.isEmpty || (Text.split (· = '-') cs).any isZero then
        some (many ++ " are numbered from 1")
      else none

def cut : Program := withOptions "snz" "dfcb" fun c o =>
  let delimiter := ((o.value? 'd').bind fun s => s.toList.head?).getD '\t'
  let columns := (o.value? 'c').or (o.value? 'b')
  let mistake? : Option String :=
    match columns, o.value? 'f' with
    | none, none => some "you must specify a list of bytes, characters, or fields"
    | some spec, _ => listMistake? "byte/character position" "byte/character positions" spec
    | none, some spec => listMistake? "field value" "fields" spec
  match mistake?, columns, o.value? 'f' with
  | some mistake, _, _ => c.misuse mistake
  | none, none, none => c.begin
  | none, some spec, _ =>
      filter c o.operands unread fun out _ bytes =>
        out.sayBytes (unlines ((lines bytes).map (listedItems spec)))
  | none, none, some spec =>
      filter c o.operands unread fun out _ bytes =>
        let shown := (lines bytes).filterMap fun l =>
          if l.contains delimiter then
            some ([delimiter].intercalate (listedItems spec (Text.split (· = delimiter) l)))
          else if o.has 's' then none
          else some l
        out.sayBytes (unlines shown)

/-- Rows of lines that stand side by side in columns. -/
def rows (delimiter : Char) (columns : List (List (List Char))) : List (List Char) :=
  let height := columns.foldl (fun n column => max n column.length) 0
  (List.range height).map fun i =>
    [delimiter].intercalate (columns.map fun column => (column[i]?).getD [])

/-- Joins the lines of each text, or the texts line by line. -/
def paste : Program := withOptions "s" "d" fun c o =>
  let delimiter := ((o.value? 'd').bind fun s => s.toList.head?).getD '\t'
  if o.has 's' then
    filter c o.operands unread fun out _ bytes =>
      out.sayBytes (unlines [[delimiter].intercalate (lines bytes)])
  else
    let operands := if o.operands.isEmpty then ["-"] else o.operands
    match operands.mapM fun operand => (c.contents operand).mapError (unread operand) with
    | .error message => c.refuse message
    | .ok texts => c.begin.sayBytes (unlines (rows delimiter (texts.map lines)))

/-! ## Making text -/

/-- Numbers from one to another in steps. -/
def sequence (first step last : Int) : Nat → List Int
  | 0 => []
  | n + 1 =>
      if (0 < step && last < first) || (step < 0 && first < last) || step = 0 then []
      else first :: sequence (first + step) step last n

def sequenceLength (first step last : Int) : Nat := (Int.tdiv (last - first) step).toNat + 1

/-- The text between the numbers of a sequence, whether they are brought to one width, and the
operands. -/
def sequenceOptions (between : String) (sameWidth : Bool) :
    List String → String × Bool × List String
  | "-w" :: rest => sequenceOptions between true rest
  | "-s" :: s :: rest => sequenceOptions s sameWidth rest
  | "--" :: rest => (between, sameWidth, rest)
  | arg :: rest =>
      match arg.toList with
      | '-' :: 's' :: s => sequenceOptions (String.ofList s) sameWidth rest
      | _ => (between, sameWidth, arg :: rest)
  | [] => (between, sameWidth, [])

def numbers : Program := fun c =>
  let integer? (s : String) : Option Int :=
    match s.toList with
    | '-' :: ds => (natural? (String.ofList ds)).map fun n => -(n : Int)
    | _ => (natural? s).map Int.ofNat
  let (between, sameWidth, args) := sequenceOptions "\n" false c.args
  let write (first step last : Int) : Outcome :=
    let numbers := (sequence first step last (sequenceLength first step last)).map fun n =>
      (toString n).toList
    let width := if sameWidth then numbers.foldl (fun n l => max n l.length) 0 else 0
    let shown := numbers.map fun l => String.ofList (List.replicate (width - l.length) '0' ++ l)
    if shown.isEmpty then c.begin else c.begin.say (between.intercalate shown ++ "\n")
  match args.find? fun s => (integer? s).isNone with
  | some bad => c.misuse ("invalid floating point argument: " ++ quote bad)
  | none =>
      match args.filterMap integer? with
      | [] => c.misuse "missing operand"
      | [last] => write 1 1 last
      | [first, last] => write first 1 last
      | [first, step, last] => write first step last
      | _ => c.misuse ("extra operand " ++ quote (args.getD 3 ""))

/-- Writes a line again and again. Whoever reads it takes only so much. -/
def repeatLine : Program := fun c =>
  let line := (if c.args.isEmpty then "y" else " ".intercalate c.args) ++ "\n"
  c.begin.say (String.join (List.replicate 4096 line))

def sleep : Program := withOptions "" "" fun c o =>
  let isTime (s : String) : Bool :=
    let cs := s.toList
    let cs := if cs.getLast?.any fun u => "smhd".toList.contains u then cs.dropLast else cs
    !cs.isEmpty && cs.all fun d => d.isDigit || d = '.'
  if o.operands.isEmpty then c.misuse "missing operand"
  else
    match o.operands.find? (!isTime ·) with
    | some bad => c.misuse ("invalid time interval " ++ quote bad)
    | none => c.begin

/-- Compares two files byte by byte. -/
def compare : Program := withOptions "s" "" fun c o =>
  match o.operands with
  | [a, b] =>
      match c.contents a, c.contents b with
      | .ok x, .ok y =>
          if x = y then c.begin
          else if o.has 's' then { c.begin with status := 1 }
          else
            let same := ((chars x).zip (chars y)).takeWhile fun p => p.1 = p.2
            let line := (same.map (·.1)).count '\n' + 1
            if same.length = x.size || same.length = y.size then
              c.begin.fail 1 (c.name ++ ": EOF on " ++ if same.length = x.size then a else b)
            else
              { c.begin.say (a ++ " " ++ b ++ " differ: char " ++ toString (same.length + 1) ++
                ", line " ++ toString line ++ "\n") with status := 1 }
      | .error e, _ => c.begin.fail 2 (c.name ++ ": " ++ a ++ ": " ++ e.reason)
      | _, .error e => c.begin.fail 2 (c.name ++ ": " ++ b ++ ": " ++ e.reason)
  | _ => c.misuse "missing operand" 2

end Docset.Program
