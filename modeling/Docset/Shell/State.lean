import Docset.Program.Basic
import Docset.Program.Exit
import Docset.Shell.Reader

/-!
# The state of a shell

A shell has variables, functions, positional parameters and numbered channels. A
channel leads to a stream: an open file, a buffer that others read from, or
nothing. Several channels may lead to one stream, and then share its position.

Commands act on the state. What keeps a script from going on with its next command
is a jump; the state in which it happened is kept.
-/
namespace Docset.Shell

inductive Stream where
  | void
  /-- What was written, and how much of it was read. -/
  | buffer (bytes : ByteArray) (position : Nat)
  /-- A place in a file. With `append`, all that is written goes to its end. -/
  | file (place : Location) (position : Nat) (append : Bool)

structure Variable where
  /-- A variable may be known without having a value. -/
  value : Option String := none
  exported : Bool := false
  /-- It cannot be set any more. -/
  fixed : Bool := false
  deriving DecidableEq, Repr

/-- A command that was left to run by itself. -/
structure Job where
  process : Nat
  ended : Program.Exit
  /-- It waits, and can be ended before its time. -/
  lasting : Bool
  deriving DecidableEq, Repr

/-- Why a script does not go on with its next command. -/
inductive Jump where
  | exit
  | killed (signal : Nat)
  /-- A function or a script that was read in ends. -/
  | returned
  | broken (loops : Nat)
  | continued (loops : Nat)
  /-- A command could not be carried out; it ends the script unless it is an ordinary one. -/
  | error
  /-- More was to be done than could be. -/
  | exhausted
  deriving DecidableEq, Repr

structure State where
  files : FileSystem
  streams : Array Stream := #[]
  channels : List (Nat × Nat) := []
  status : Nat := 0
  /-- The status of the latest command whose output was taken, since a command began. -/
  substituted : Option Nat := none
  bindings : List (String × Variable) := []
  functions : List (String × Tree) := []
  name : String := "sh"
  parameters : List String := []
  options : List Char := []
  line : Nat := 0
  command : Option String := none
  /-- Signals, with 0 for the end of the script, and what is done about them; nothing at all if the
  text is empty. -/
  traps : List (Nat × String) := []
  /-- The traps of the shell that the process number names, while a part of it runs on its own. -/
  outerTraps : Option (List (Nat × String)) := none
  /-- Signals that were caught and not dealt with yet. -/
  caught : List Nat := []
  trapped : Option Nat := none
  /-- The current folder, as it was reached. -/
  folder : String := "/"
  /-- How many letters of an argument were taken for options. -/
  optionLetter : Nat := 0
  /-- What new files do not permit. -/
  mask : Nat := 0o022
  /-- Output was lost because its channel is closed. -/
  lost : Bool := false
  process : Nat := 4242
  nextProcess : Nat := 4243
  jobs : List Job := []
  latestJob : Option Nat := none
  loops : Nat := 0
  calls : Nat := 0
  /-- The values of variables that functions have hidden, for each function being run. -/
  hidden : List (List (String × Option Variable)) := []
  documents : List (Nat × Word) := []
  nextDocument : Nat := 0
  isSubshell : Bool := false

/-- A command that acts on a shell. -/
abbrev Act := EStateM Jump State

namespace State

def has (s : State) (option : Char) : Bool := s.options.contains option

/-! ## Variables -/

def variableOf? (s : State) (name : String) : Option Variable := s.bindings.lookup name

def value? (s : State) (name : String) : Option String := (s.variableOf? name).bind (·.value)

def putVariable (s : State) (name : String) (v : Variable) : State :=
  { s with bindings := (name, v) :: s.bindings.filter (·.1 ≠ name) }

def dropVariable (s : State) (name : String) : State :=
  { s with bindings := s.bindings.filter (·.1 ≠ name) }

/-- The value of a parameter of any kind; the list of all parameters is none. -/
def parameter? (s : State) (name : String) : Option String :=
  match name with
  | "?" => some (toString s.status)
  | "#" => some (toString s.parameters.length)
  | "$" => some (toString s.process)
  | "!" => s.latestJob.map toString
  | "-" => some (String.ofList ("ubaCEVvxsnmiIfe".toList.filter s.options.contains))
  | "0" => some s.name
  | _ =>
      match Program.natural? name with
      | some n => if n = 0 then some s.name else s.parameters[n - 1]?
      | none => s.value? name

def separators (s : State) : List Char := ((s.value? "IFS").getD " \t\n").toList

/-- The variables that programs get to see. -/
def environment (s : State) : List (String × String) :=
  s.bindings.reverse.filterMap fun (name, v) =>
    if v.exported then v.value.map (name, ·) else none

/-! ## Streams -/

def streamOf? (s : State) (channel : Nat) : Option Nat := s.channels.lookup channel

def addStream (s : State) (stream : Stream) : Nat × State :=
  (s.streams.size, { s with streams := s.streams.push stream })

def connect (s : State) (channel stream : Nat) : State :=
  { s with channels := (channel, stream) :: s.channels.filter (·.1 ≠ channel) }

def disconnect (s : State) (channel : Nat) : State :=
  { s with channels := s.channels.filter (·.1 ≠ channel) }

/-- Bytes with others put in at a place. -/
def overwrite (old : ByteArray) (position : Nat) (new : ByteArray) : ByteArray :=
  if position = old.size then old ++ new
  else
    let gap : ByteArray := ⟨(List.replicate (position - old.size) (0 : UInt8)).toArray⟩
    old.extract 0 position ++ gap ++ new ++ old.extract (position + new.size) old.size

def fileBytes (s : State) (place : Location) : ByteArray :=
  match s.files.get? place with
  | some (.file bytes _) => bytes
  | _ => .empty

def writeStream (s : State) (stream : Nat) (bytes : ByteArray) : State :=
  match s.streams[stream]? with
  | some (.buffer old position) =>
      { s with streams := s.streams.set! stream (.buffer (old ++ bytes) position) }
  | some (.file place position append) =>
      let old := s.fileBytes place
      let position := if append then old.size else position
      let files :=
        match s.files.get? place with
        | some (.file _ _) => s.files.fill place (overwrite old position bytes)
        | _ => s.files
      { s with
        files
        streams := s.streams.set! stream (.file place (position + bytes.size) append) }
  | _ => s

/-- Writes to a channel. What is written to a channel that is closed is lost. -/
def write (s : State) (channel : Nat) (bytes : ByteArray) : State :=
  match s.streamOf? channel with
  | some stream => s.writeStream stream bytes
  | none => if bytes.isEmpty then s else { s with lost := true }

def unread (s : State) (channel : Nat) : ByteArray :=
  match (s.streamOf? channel).bind (s.streams[·]?) with
  | some (.buffer bytes position) => bytes.extract position bytes.size
  | some (.file place position _) =>
      let bytes := s.fileBytes place
      bytes.extract position bytes.size
  | _ => .empty

def faultOf? (s : State) (channel : Nat) : Option IoError :=
  match (s.streamOf? channel).bind (s.streams[·]?) with
  | none => some .badChannel
  | some (.file place _ _) => if s.files.get? place = some .folder then some .isAFolder else none
  | _ => none

def placeOf? (s : State) (channel : Nat) : Option Location :=
  match (s.streamOf? channel).bind (s.streams[·]?) with
  | some (.file place _ _) => some place
  | _ => none

/-- Goes on in what a channel has to read. -/
def advance (s : State) (channel count : Nat) : State :=
  match s.streamOf? channel with
  | none => s
  | some stream =>
      match s.streams[stream]? with
      | some (.buffer bytes position) =>
          { s with streams := s.streams.set! stream (.buffer bytes (position + count)) }
      | some (.file place position append) =>
          { s with streams := s.streams.set! stream (.file place (position + count) append) }
      | _ => s

def complaint (s : State) (message : String) : String :=
  s.name ++ ": " ++ toString s.line ++ ": " ++
    (match s.command with
      | some command => command ++ ": "
      | none => "") ++ message ++ "\n"

def warn (s : State) (message : String) : State := s.write 2 (s.complaint message).toUTF8

/-- The state of a shell after a part of it ran on its own: what that part did to files and streams
stays, all else is as it was. -/
def after (s inner : State) : State :=
  { s with
    files := { inner.files with here := s.files.here }
    streams := inner.streams
    status := inner.status % 256
    caught := inner.caught
    nextProcess := inner.nextProcess
    documents := inner.documents
    nextDocument := inner.nextDocument }

end State

namespace Act

def setStatus (n : Nat) : Act Unit := modify fun s => { s with status := n }

def warn (message : String) : Act Unit := modify (·.warn message)

/-- Complains, and gives up with the status 2. -/
def fail {α : Type} (message : String) : Act α := do
  warn message
  setStatus 2
  throw .error

def reject (status : Nat) (message : String) : Act Unit := do
  warn message
  setStatus status

def say (text : String) : Act Unit := modify (·.write 1 text.toUTF8)

def setVariable (name value : String) : Act Unit := do
  let old := ((← get).variableOf? name).getD {}
  if old.fixed then fail (name ++ ": is read only")
  else
    let exported := old.exported || (← get).has 'a'
    modify (·.putVariable name { old with value := some value, exported })

/-- Does something, and then goes back to where channels led before. -/
def keepingChannels {α : Type} (act : Act α) : Act α := fun s =>
  match act s with
  | .ok a after => .ok a { after with channels := s.channels }
  | .error j after => .error j { after with channels := s.channels }

/-- Does something under the name of a command that complaints quote. -/
def named {α : Type} (command : Option String) (act : Act α) : Act α := fun s =>
  match act { s with command } with
  | .ok a after => .ok a { after with command := s.command }
  | .error j after => .error j { after with command := s.command }

/-- Does something in a part of the shell of its own, which leaves behind a status, files and
streams only. A signal ends the whole shell. -/
def inSubshell (atEnd : Act Unit) (act : Act Unit) : Act Unit := fun s =>
  let inner : State :=
    { s with
      isSubshell := true
      traps := s.traps.filter (·.2 = "")
      outerTraps := some (s.outerTraps.getD s.traps)
      jobs := [] }
  let finish (t : State) : EStateM.Result Jump State Unit :=
    match atEnd t with
    | .error (.killed n) t => .error (.killed n) (s.after t)
    | .error .exhausted t => .error .exhausted (s.after t)
    | .error _ t => .ok () (s.after t)
    | .ok _ t => .ok () (s.after t)
  match act inner with
  | .error (.killed n) t => .error (.killed n) (s.after t)
  | .error .exhausted t => .error .exhausted (s.after t)
  | .error _ t => finish t
  | .ok _ t => finish t

end Act

end Docset.Shell
