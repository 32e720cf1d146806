import Docset.Program.Condition
import Docset.Shell.Pattern
import Docset.Shell.Search
import Docset.Text.Utf8

/-!
# Commands that the shell carries out itself

These act on the shell that runs them, which no program could. The ones here need
nothing but the shell; those that run other commands are part of the evaluation.
-/
namespace Docset.Shell

/-- A command that the shell carries out itself, given its arguments. -/
abbrev Builtin := List String → Act Unit

namespace Builtin

/-! ## Arguments -/

/-- Sorts the options from the operands, which come after them. -/
def options (known valued : String) (o : Program.Options) : List String → Act Program.Options
  | [] => return o
  | "--" :: rest => return { o with operands := rest }
  | arg :: rest =>
      match arg.toList with
      | '-' :: letter :: letters =>
          match Program.readLetters known.toList valued.toList o (letter :: letters) with
          | .error bad => Act.fail ("Illegal option -" ++ bad.toString)
          | .ok (o, none) => options known valued o rest
          | .ok (o, some wanting) =>
              match rest with
              | value :: rest => options known valued
                  { o with values := (wanting, value) :: o.values } rest
              | [] => Act.fail ("No arg for -" ++ wanting.toString ++ " option")
      | _ => return { o with operands := arg :: rest }

/-- The largest number that is taken for a status or a count. -/
def largestNumber : Nat := 2147483647

/-- The number that an argument has to be. -/
def number (s : String) : Act Nat :=
  let isBlank (c : Char) : Bool := c = ' ' || ('\t' ≤ c && c ≤ '\r')
  let cs := s.toList.dropWhile isBlank
  let cs := if cs.head? = some '+' then cs.drop 1 else cs
  let digits := cs.takeWhile Char.isDigit
  match Program.natural? (String.ofList digits) with
  | some n =>
      if n ≤ largestNumber && (cs.drop digits.length).all isBlank then return n
      else Act.fail ("Illegal number: " ++ s)
  | none => Act.fail ("Illegal number: " ++ s)

/-- A text in quotes, as it could stand in a script. -/
def quoted (s : String) : String :=
  let pieces := s.splitOn "'"
  "\"'\"".intercalate (pieces.map fun piece => "'" ++ piece ++ "'")

/-! ## Leaving -/

/-- Ends the script. In a trap the status is the one from before it. -/
def exit : Builtin := fun args => do
  match args with
  | [] => match (← get).trapped with
      | some n => Act.setStatus n
      | none => pure ()
  | n :: _ => Act.setStatus (← number n)
  throw .exit

def leave : Builtin := fun args => do
  match args with
  | [] => pure ()
  | n :: _ => Act.setStatus (← number n)
  throw .returned

/-- How many of the loops around a command are meant. -/
def loopCount (args : List String) : Act Nat := do
  match args with
  | [] => return min 1 (← get).loops
  | arg :: _ =>
      let n ← number arg
      if n = 0 then Act.fail ("Illegal number: " ++ arg) else return min n (← get).loops

def leaveLoop (jump : Nat → Jump) : Builtin := fun args => do
  let n ← loopCount args
  Act.setStatus 0
  if 0 < n then throw (jump n)

/-! ## Parameters and variables -/

def shift : Builtin := fun args => do
  let n ← match args with
    | [] => pure 1
    | n :: _ => number n
  if (← get).parameters.length < n then Act.fail "can't shift that many"
  modify fun s => { s with parameters := s.parameters.drop n, status := 0 }

/-- The name and the value of an argument that may set a variable. -/
def splitAssignment (arg : String) : String × Option String :=
  let name := arg.toList.takeWhile (· ≠ '=')
  let rest := arg.toList.drop name.length
  (String.ofList name, if rest.isEmpty then none else some (String.ofList (rest.drop 1)))

def requireName (name : String) : Act Unit :=
  if isName name then pure () else Act.fail (name ++ ": bad variable name")

/-- The variables that have a property, as commands that would give it to them. -/
def declarations (s : State) (command : String) (has : Variable → Bool) : String :=
  let shown := s.bindings.filter (has ·.2)
  let sorted := shown.mergeSort fun a b => a.1 ≤ b.1
  String.join (sorted.map fun (name, v) =>
    (if command = "" then "" else command ++ " ") ++ name ++
      (match v.value with
        | some value => "=" ++ quoted value
        | none => "") ++ "\n")

/-- Gives variables a property, and perhaps values. -/
def declare (command : String) (has : Variable → Bool) (mark : Variable → Variable) : Builtin :=
  fun args => do
    let o ← options "p" "" {} args
    if o.has 'p' || o.operands.isEmpty then Act.say (declarations (← get) command has)
    else
      o.operands.forM fun arg => do
        let (name, value) := splitAssignment arg
        requireName name
        match value with
        | some value => Act.setVariable name value
        | none => pure ()
        modify fun s => s.putVariable name (mark ((s.variableOf? name).getD {}))
    Act.setStatus 0

def unset : Builtin := fun args => do
  let o ← options "vf" "" {} args
  o.operands.forM fun name => do
    if o.has 'f' then modify fun s => { s with functions := s.functions.filter (·.1 ≠ name) }
    else
      requireName name
      match (← get).variableOf? name with
      | some v => if v.fixed then Act.fail (name ++ ": is read only")
      | none => pure ()
      modify (·.dropVariable name)
  Act.setStatus 0

/-- Remembers a variable that a function hides until it ends. -/
def hide (name : String) (s : State) : State :=
  match s.hidden with
  | [] => s
  | first :: rest => { s with hidden := ((name, s.variableOf? name) :: first) :: rest }

def localize : Builtin := fun args => do
  if (← get).calls = 0 then Act.fail "not in a function"
  args.forM fun arg => do
    let (name, value) := splitAssignment arg
    requireName name
    modify (hide name)
    match value with
    | some value => Act.setVariable name value
    | none => modify fun s => s.putVariable name ((s.variableOf? name).getD {})
  Act.setStatus 0

/-! ## Options of the shell -/

def optionNames : List (String × Char) :=
  [("errexit", 'e'), ("noglob", 'f'), ("ignoreeof", 'I'), ("interactive", 'i'), ("monitor", 'm'),
    ("noexec", 'n'), ("stdin", 's'), ("xtrace", 'x'), ("verbose", 'v'), ("vi", 'V'), ("emacs", 'E'),
    ("noclobber", 'C'), ("allexport", 'a'), ("notify", 'b'), ("nounset", 'u'), ("privileged", 'p')]

/-- Options that are known by name only, and cannot be set. -/
def idleOptions : List String := ["nolog", "debug"]

def setOption (on : Bool) (c : Char) : Act Unit := do
  if !(optionNames.any (·.2 = c)) then Act.fail ("Illegal option -" ++ c.toString)
  if on && c = 'm' then Act.warn "can't access tty; job control turned off"
  else modify fun s =>
    let others := s.options.filter (· ≠ c)
    { s with options := if on then c :: others else others }

def setNamedOption (on : Bool) (name : String) : Act Unit :=
  match optionNames.lookup name with
  | some c => setOption on c
  | none => if idleOptions.contains name then pure () else Act.fail ("Illegal option -o " ++ name)

/-- All options and how they are set, to read or to use. -/
def optionTable (s : State) (forReading : Bool) : String :=
  let pad (name : String) : String := name ++ String.ofList (List.replicate (16 - name.length) ' ')
  let line (name : String) (on : Bool) : String :=
    if forReading then pad name ++ (if on then "on" else "off") ++ "\n"
    else "set " ++ (if on then "-o " else "+o ") ++ name ++ "\n"
  (if forReading then "Current option settings\n" else "") ++
    String.join (optionNames.map fun (name, c) => line name (s.has c)) ++
    String.join (idleOptions.map (line · false))

/-- Sets the options of one argument; whether a name for an option is still to come. -/
def setLetters (on : Bool) : List Char → Act Bool
  | [] => return false
  | c :: rest => do
      if c = 'o' then
        discard (setLetters on rest)
        return true
      else
        setOption on c
        setLetters on rest

/-- Sets options from arguments; what is left of these are parameters. `none` means that the
parameters stay. -/
def setOptions : List String → Act (Option (List String))
  | [] => return none
  | "--" :: rest => return some rest
  | "-" :: rest => do
      setOption false 'x'
      setOption false 'v'
      return if rest.isEmpty then none else some rest
  | arg :: rest =>
      let letters (on : Bool) (cs : List Char) : Act (Option (List String)) := do
        if ← setLetters on cs then
          match rest with
          | name :: rest =>
              setNamedOption on name
              setOptions rest
          | [] =>
              Act.say (optionTable (← get) on)
              return none
        else setOptions rest
      match arg.toList with
      | '-' :: cs => letters true cs
      | '+' :: cs => letters false cs
      | _ => return some (arg :: rest)

def set : Builtin := fun args => do
  if args.isEmpty then Act.say (declarations (← get) "" (·.value.isSome))
  else
    match ← setOptions args with
    | some parameters => modify fun s => { s with parameters }
    | none => pure ()
  Act.setStatus 0

/-! ## Folders -/

/-- A path in full: from the root, without names that lead nowhere or back. -/
def fullPath (folder path : String) : String :=
  let start := if (Path.mk path).isAbsolute then "" else folder
  let names := (Path.mk start).pieces ++ (Path.mk path).pieces
  let step (names : List String) (name : String) : List String :=
    if name = "" || name = "." then names else if name = ".." then names.drop 1 else name :: names
  "/" ++ "/".intercalate (names.foldl step []).reverse

/-- Goes to a folder. -/
def enter (physical : Bool) (path : String) : Act Unit := do
  let s ← get
  let goal := if physical then path else fullPath s.folder path
  match s.files.stat ⟨goal⟩ with
  | .ok (place, .folder) =>
      let folder := if physical then place.path.text else goal
      Act.setVariable "OLDPWD" s.folder
      Act.setVariable "PWD" folder
      modify fun s => { s with files := { s.files with here := place }, folder }
  | _ => Act.fail ("can't cd to " ++ path)

def changeFolder : Builtin := fun args => do
  let o ← options "LP" "" {} args
  let s ← get
  let physical := o.flags.getLast? = some 'P'
  match o.operands with
  | [] => enter physical (let home := (s.value? "HOME").getD ""; if home = "" then "." else home)
  | "-" :: _ =>
      enter physical (let old := (s.value? "OLDPWD").getD ""; if old = "" then "." else old)
      Act.say ((← get).folder ++ "\n")
  | path :: _ => enter physical (if path = "" then "." else path)
  Act.setStatus 0

def showFolder : Builtin := fun args => do
  let o ← options "LP" "" {} args
  let s ← get
  Act.say ((if o.flags.getLast? = some 'P' then s.files.here.path.text else s.folder) ++ "\n")
  Act.setStatus 0

/-! ## Output and conditions -/

def echo : Builtin := fun args => do
  modify (·.write 1 (Program.echoBytes args))
  Act.setStatus 0

def print : Builtin := fun args => do
  let o ← options "" "" {} args
  match o.operands with
  | [] => Act.fail "usage: printf format [arg ...]"
  | pattern :: args =>
      let p := Program.printed pattern args
      p.complaints.forM fun e => Act.warn e.message
      modify (·.write 1 ⟨p.bytes.toArray⟩)
      Act.setStatus (if p.bad then 2 else if p.complaints.isEmpty then 0 else 1)

def test (name : String) : Builtin := fun args => do
  match Program.Condition.ofArguments (← get).files name args with
  | .ok answer => Act.setStatus (if answer then 0 else 1)
  | .error message => Act.fail message

/-! ## Input -/

/-- How many bytes the next line takes up, with its line break, and whether it has one. Unless it
is `raw`, a line break after a backslash belongs to the line. -/
def lineLength (raw : Bool) : List UInt8 → Nat × Bool
  | [] => (0, false)
  | 92 :: b :: rest =>
      if raw then
        let (n, ended) := lineLength raw (b :: rest)
        (n + 1, ended)
      else
        let (n, ended) := lineLength raw rest
        (n + 2, ended)
  | b :: rest =>
      if b = 10 then (1, true)
      else
        let (n, ended) := lineLength raw rest
        (n + 1, ended)

/-- The characters of a line. Those after a backslash stand for themselves. -/
def lineGlyphs (raw : Bool) : List Char → List Glyph
  | [] => []
  | '\\' :: c :: rest =>
      if raw then ('\\', false) :: lineGlyphs raw (c :: rest)
      else if c = '\n' then lineGlyphs raw rest
      else (c, true) :: lineGlyphs raw rest
  | c :: rest =>
      if c = '\n' || (c = '\\' && !raw) then lineGlyphs raw rest
      else if c = '\x00' then lineGlyphs raw rest
      else (c, false) :: lineGlyphs raw rest

/-- A character at which a line is divided. -/
def divides (separators : List Char) (g : Glyph) : Bool := !g.2 && separators.contains g.1

/-- White space at which a line is divided. -/
def isSpace (separators : List Char) (g : Glyph) : Bool :=
  divides separators g && (g.1 = ' ' || g.1 = '\t' || g.1 = '\n')

/-- What is left of a line after the end of a field. -/
def afterField (separators : List Char) (gs : List Glyph) : List Glyph :=
  match gs.dropWhile (isSpace separators) with
  | g :: rest =>
      if divides separators g then rest.dropWhile (isSpace separators) else g :: rest
  | [] => []

/-- Where the last field ends: `cut` is the place from which on everything may be left out. -/
structure Ending where
  position : Nat := 0
  cut : Option Nat := none
  /-- The separator that ended the field was white space. -/
  spaced : Bool := false
  /-- A separator was met. -/
  met : Bool := false

def Ending.next (separators : List Char) (e : Ending) (g : Glyph) : Ending :=
  let moved := { e with position := e.position + 1 }
  if !e.met then
    if divides separators g then
      { moved with met := true, cut := some e.position, spaced := isSpace separators g }
    else moved
  else if isSpace separators g then { moved with cut := some (e.cut.getD e.position) }
  else if divides separators g && e.spaced then { moved with spaced := false }
  else { moved with cut := none, spaced := false }

/-- All of a line but the separators at its end. -/
def lastField (separators : List Char) (gs : List Glyph) : List Glyph :=
  match (gs.foldl (Ending.next separators) {}).cut with
  | some n => gs.take n
  | none => gs

/-- Divides a line among so many variables. -/
def share (separators : List Char) : Nat → List Glyph → List String
  | 0, _ => []
  | 1, gs => [String.ofList ((lastField separators gs).map (·.1))]
  | n + 2, gs =>
      let field := gs.takeWhile (!divides separators ·)
      String.ofList (field.map (·.1)) ::
        share separators (n + 1) (afterField separators (gs.drop field.length))

def read : Builtin := fun args => do
  let o ← options "r" "p" {} args
  if o.operands.isEmpty then Act.fail "arg count"
  let s ← get
  let bytes := s.unread 0
  let (length, ended) := lineLength (o.has 'r') bytes.toList
  modify (·.advance 0 length)
  let line := Text.decodeLossy (bytes.extract 0 length)
  let gs := (lineGlyphs (o.has 'r') line.toList).dropWhile (isSpace s.separators)
  (o.operands.zip (share s.separators o.operands.length gs)).forM fun (name, value) => do
    requireName name
    Act.setVariable name value
  Act.setStatus (if ended then 0 else 1)

/-! ## Signals and traps -/

/-- How the shell calls a signal; 0 is the end of the script. -/
def signalName (n : Nat) : String :=
  if n = 0 then "EXIT"
  else if n = 34 then "RTMIN"
  else if n = 64 then "RTMAX"
  else if 34 < n && n < 50 then "RTMIN+" ++ toString (n - 34)
  else if 50 ≤ n && n < 64 then "RTMAX-" ++ toString (64 - n)
  else if n = 16 then "16"
  else (Program.signalName? n).getD (toString n)

def signalCount : Nat := 65

/-- The signal of a number or a name; `least` says whether the end of the script is one. -/
def signal? (least : Nat) (s : String) : Option Nat :=
  match Program.natural? s with
  | some n => if n < signalCount then some n else none
  | none => (List.range signalCount).find? fun n =>
      least ≤ n && (signalName n).map Char.toUpper = s.map Char.toUpper

def trap : Builtin := fun args => do
  let o ← options "" "" {} args
  let s ← get
  match o.operands with
  | [] =>
      let sorted := s.traps.mergeSort fun a b => a.1 ≤ b.1
      sorted.forM fun (n, action) =>
        Act.say ("trap -- " ++ quoted action ++ " " ++ signalName n ++ "\n")
      Act.setStatus 0
  | first :: rest =>
      let resets := rest.isEmpty || (Program.natural? first).any (· < signalCount)
      let action := if resets || first = "-" then none else some first
      Act.setStatus 0
      setAll action (if resets then o.operands else rest)
where
  /-- Sets the action for conditions, up to one that there is not. -/
  setAll (action : Option String) : List String → Act Unit
    | [] => pure ()
    | condition :: rest => do
        match signal? 0 condition with
        | some n =>
            modify fun s =>
              { s with traps := action.toList.map (n, ·) ++ s.traps.filter (·.1 ≠ n) }
            setAll action rest
        | none =>
            modify (·.write 2 ("trap: " ++ condition ++ ": bad trap\n").toUTF8)
            Act.setStatus 1

/-- Signals that only hold a program up. -/
def stopSignals : List Nat := [19, 20, 21, 22]

/-- What a signal to the shell itself does. -/
def receive (n : Nat) : Act Unit := do
  let s ← get
  if n = 9 then throw (.killed n)
  match (s.outerTraps.getD s.traps).lookup n with
  | some "" => pure ()
  | some _ => modify fun s => { s with caught := s.caught ++ [n] }
  | none =>
      if n = 0 || Program.idleSignals.contains n || stopSignals.contains n then pure ()
      else throw (.killed n)

/-- What a signal does to a job. -/
def Job.receive (n : Nat) (j : Job) : Job :=
  if !j.lasting || n = 0 || Program.idleSignals.contains n then j
  else { j with ended := .signal n, lasting := false }

def killUsage : String :=
  "Usage: kill [-s sigspec | -signum | -sigspec] [pid | job]... or\nkill -l [exitstatus]"

/-- Sends a signal to a process. -/
def send (n : Nat) (target : String) : Act Unit := do
  let process ← number target
  let s ← get
  if process = s.process then receive n
  else if s.jobs.any (·.process = process) then
    let jobs := s.jobs.map fun j => if j.process = process then Job.receive n j else j
    modify fun s => { s with jobs }
  else
    Act.warn "No such process\n"
    Act.setStatus 1

/-- Lists signals. -/
def listSignals : List String → Act Unit
  | [] =>
      Act.say ("0\n" ++ String.join ((List.range signalCount).tail.map (signalName · ++ "\n")))
  | arg :: _ => do
      let n ← number arg
      let n := if 128 < n then n - 128 else n
      if 0 < n && n < signalCount then Act.say (signalName n ++ "\n")
      else Act.fail ("invalid signal number or exit status: " ++ arg)

def kill : Builtin := fun args => do
  let (signal, lists, targets) ← match args with
    | [] => pure (none, false, [])
    | first :: rest => do
        match first.toList with
        | '-' :: spelled =>
            match signal? 1 (String.ofList spelled) with
            | some n => pure (some n, false, rest)
            | none =>
                let o ← options "l" "s" {} args
                match o.value? 's' with
                | some name =>
                    match signal? 1 name with
                    | some n => pure (some n, o.has 'l', o.operands)
                    | none => Act.fail ("invalid signal number or name: " ++ name)
                | none => pure (none, o.has 'l', o.operands)
        | _ => pure (none, false, args)
  Act.setStatus 0
  if lists then listSignals targets
  else if targets.isEmpty then Act.fail killUsage
  else targets.forM (send (signal.getD 15))

/-! ## Jobs -/

/-- What is said about a program that a signal ended; about some signals nothing is. -/
def obituary (n : Nat) : String :=
  if n = 2 || n = 13 then "" else Program.signalEffect n ++ "\n"

/-- Waits for a job. That a signal ended it is told once. -/
def await (process : Nat) : Act Unit := do
  let s ← get
  match s.jobs.find? (·.process = process) with
  | none => Act.setStatus 127
  | some job =>
      match job.ended with
      | .signal n =>
          modify (·.write 2 (obituary n).toUTF8)
          modify fun s => { s with jobs := s.jobs.map fun j =>
            if j.process = process then { j with ended := .status (128 + n) } else j }
      | _ => pure ()
      Act.setStatus job.ended.code

def wait : Builtin := fun args => do
  let o ← options "" "" {} args
  Act.setStatus 0
  match o.operands with
  | [] => pure ()
  | targets =>
      targets.forM fun target => do
        match target.toList with
        | '%' :: digits =>
            let jobs := (← get).jobs
            match (Program.natural? (String.ofList digits)).bind fun n => jobs[n - 1]? with
            | some job => await job.process
            | none => Act.fail ("No such job: " ++ target)
        | _ => await (← number target)

/-! ## Names of commands -/

/-- Tells what names stand for. -/
def explain (inFull : Bool) (names : List String) : Act Unit := do
  Act.setStatus 0
  names.forM fun name => do
    match (← get).describe? inFull name with
    | some text => Act.say (text ++ "\n")
    | none =>
        if inFull then Act.say (name ++ ": not found\n")
        Act.setStatus 127

def type : Builtin := fun args => do
  explain true (← options "" "" {} args).operands

/-! ## Options of scripts -/

/-- What the next option of a script is. -/
inductive Found where
  | flag
  | valued (value : String)
  | unknown
  /-- Its value is missing. -/
  | bare

/-- The next option among arguments, its letter, and where to go on: the argument, counted from
one, and the letter in it. -/
def nextOption? (known : List Char) (args : List String) (argument letter : Nat) :
    Option (Char × Found × Nat × Nat) :=
  match (args[argument - 1]?.getD "").toList with
  | '-' :: letters =>
      if letters.isEmpty || letters = ['-'] then none
      else
        match letters.drop letter with
        | [] => none
        | c :: rest =>
            let following := if rest.isEmpty then (argument + 1, 0) else (argument, letter + 1)
            match known.dropWhile (· ≠ c) with
            | [] => some (c, .unknown, following)
            | _ :: ':' :: _ =>
                if !rest.isEmpty then some (c, .valued (String.ofList rest), argument + 1, 0)
                else
                  match args[argument]? with
                  | some value => some (c, .valued value, argument + 2, 0)
                  | none => some (c, .bare, argument + 1, 0)
            | _ => some (c, .flag, following)
  | _ => none

/-- Sets the variables for one option. With `quiet`, a wrong option is left to the script. -/
def tellOption (name : String) (quiet : Bool) (c : Char) : Found → Act Unit
  | .flag => do
      modify (·.dropVariable "OPTARG")
      Act.setVariable name c.toString
  | .valued value => do
      Act.setVariable "OPTARG" value
      Act.setVariable name c.toString
  | .unknown => wrong "?" ("Illegal option -" ++ c.toString)
  | .bare => wrong ":" ("No arg for -" ++ c.toString ++ " option")
where
  wrong (sign message : String) : Act Unit := do
    if quiet then
      Act.setVariable "OPTARG" c.toString
      Act.setVariable name sign
    else
      modify (·.write 2 (message ++ "\n").toUTF8)
      modify (·.dropVariable "OPTARG")
      Act.setVariable name "?"

def getOption : Builtin := fun args => do
  match args with
  | known :: name :: rest =>
      let s ← get
      let args := if rest.isEmpty then s.parameters else rest
      let argument := max 1 (((s.value? "OPTIND").bind Program.natural?).getD 1)
      match nextOption? known.toList args argument s.optionLetter with
      | some (c, found, argument, letter) =>
          modify fun s => { s with optionLetter := letter }
          Act.setVariable "OPTIND" (toString argument)
          tellOption name (known.toList.head? = some ':') c found
          Act.setStatus 0
      | none =>
          let skipped := if args[argument - 1]? = some "--" then 1 else 0
          modify fun s => { s with optionLetter := 0 }
          Act.setVariable "OPTIND" (toString (argument + skipped))
          Act.setVariable name "?"
          Act.setStatus 1
  | _ => Act.fail "Usage: getopts optstring var [arg]"

/-! ## Permissions -/

def octalText (n : Nat) : String :=
  let digits := Nat.toDigits 8 n
  String.ofList (List.replicate (4 - digits.length) '0' ++ digits)

def mask : Builtin := fun args => do
  let o ← options "S" "" {} args
  match o.operands with
  | [] => Act.say (octalText (← get).mask ++ "\n")
  | arg :: _ =>
      if arg.toList.all fun c => '0' ≤ c && c ≤ '7' then
        let n := arg.toList.foldl (fun n c => n * 8 + (c.toNat - '0'.toNat)) 0
        modify fun s => { s with mask := n % 512 }
      else if arg.toList.head?.any Char.isDigit then Act.fail ("Illegal number: " ++ arg)
      else Act.fail ("Illegal mode: " ++ arg)
  Act.setStatus 0

end Builtin

end Docset.Shell
