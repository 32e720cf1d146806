import Docset.Shell.Builtins
import Docset.Shell.Redirection

/-!
# Running scripts

What a script does, command by command. Commands contain commands, functions call
functions, and programs start programs. So each rule says what to do in terms of
`perform`, which stands for everything that is carried out on the way; the knot is
tied at the end, where things may be nested only so deep.

The status of a command is kept in the state. A command that is `tested` may fail
even where a failure would end the script.
-/
namespace Docset.Shell

/-- Something that can be carried out. -/
inductive Task where
  | tree (tested : Bool) (t : Tree)
  /-- The commands of a text, read one after the other. -/
  | script (tested : Bool) (text : String)
  /-- A program with an environment. -/
  | launch (invocation : Program.Invocation) (environment : List (String × String))

/-- How tasks are carried out. -/
abbrev Perform := Task → Act Unit

namespace Act

/-- Does something, and tells the jump that ended it. -/
def attempt (act : Act Unit) : Act (Option Jump) := fun s =>
  match act s with
  | .ok _ t => .ok none t
  | .error j t => .ok (some j) t

def rethrow : Option Jump → Act Unit
  | some j => throw j
  | none => pure ()

end Act

namespace Evaluation

/-! ## Traps -/

/-- Runs the text of a trap. The status is afterwards what it was, unless the trap sets one by
leaving. -/
def runTrap (perform : Perform) (action : String) : Act (Option Jump) := do
  let s ← get
  set { s with trapped := some (s.trapped.getD s.status) }
  let jump ← Act.attempt (perform (.script false action))
  modify fun t => { t with trapped := s.trapped }
  if jump = none then Act.setStatus s.status
  return jump

/-- Deals with one signal that was caught. -/
def dealWith (perform : Perform) (signal : Nat) : Act Unit := do
  match (← get).traps.lookup signal with
  | some action => Act.rethrow (← runTrap perform action)
  | none => pure ()

/-- Deals with the signals that were caught. -/
def dealWithAll (perform : Perform) : Act Unit := do
  let s ← get
  if s.isSubshell then pure ()
  else
    match s.caught with
    | [] => pure ()
    | caught =>
        set { s with caught := [] }
        (caught.eraseDups.mergeSort (· ≤ ·)).forM (dealWith perform)

/-- Runs the trap for the end of a script. -/
def atEnd (perform : Perform) : Act Unit := do
  let s ← get
  match s.traps.lookup 0 with
  | none => pure ()
  | some action =>
      set { s with traps := s.traps.filter (·.1 ≠ 0) }
      match ← runTrap perform action with
      | some (.killed n) => throw (.killed n)
      | some .exhausted => throw .exhausted
      | some .returned => Act.setStatus s.status
      | _ => pure ()

/-- Does something in a part of the shell of its own. -/
def subshell (perform : Perform) (act : Act Unit) : Act Unit := Act.inSubshell (atEnd perform) act

/-! ## The output of commands -/

/-- What a buffer holds. -/
def bufferBytes (s : State) (stream : Nat) : ByteArray :=
  match s.streams[stream]? with
  | some (.buffer bytes _) => bytes
  | _ => .empty

/-- The output of commands as text, which cannot hold the character that ends system strings. -/
def outputText (bytes : ByteArray) : String :=
  String.ofList ((Text.decodeLossy bytes).toList.filter (· ≠ '\x00'))

def outputOf (perform : Perform) : Expansion.OutputOf := fun body => do
  let s ← get
  let (stream, inner) := s.addStream (.buffer .empty 0)
  set (inner.connect 1 stream)
  subshell perform (perform (.tree false body))
  let t ← get
  set { t with channels := s.channels, substituted := some t.status, status := s.status }
  return outputText (bufferBytes t stream)

/-! ## Scripts -/

/-- Reads the next command of a script. -/
def nextCommand (source : Source) : Act (Option Tree × Source) := do
  let s ← get
  match Reading.completeCommand { source with documents := [], next := s.nextDocument } with
  | .ok tree source =>
      set { s with documents := source.documents ++ s.documents, nextDocument := source.next }
      return (tree, source)
  | .error message source =>
      set { s with line := source.line }
      Act.fail ("Syntax error: " ++ message)

/-- Runs the commands of a script, of which there are at most so many; `ran` says whether there
was one already. -/
def runCommands (perform : Perform) (tested : Bool) : Nat → Bool → Source → Act Unit
  | 0, _, _ => throw .exhausted
  | n + 1, ran, source => do
      match ← nextCommand source with
      | (none, _) => if !ran then Act.setStatus 0
      | (some .nothing, source) => runCommands perform tested n ran source
      | (some tree, source) =>
          perform (.tree tested tree)
          runCommands perform tested n true source

def runScript (perform : Perform) (tested : Bool) (text : String) : Act Unit :=
  runCommands perform tested (text.length + 2) false { rest := text.toList }

/-! ## Programs -/

/-- What is started for a command: the first of its paths that can be. A file that is neither a
program nor a script with an interpreter is a script for the shell. -/
def loadFirst (fs : FileSystem) (name : String) (args : List String) (cause : IoError) :
    List String → Except IoError Program.Invocation
  | [] => .error cause
  | path :: rest =>
      match Program.load fs Program.interpreterLimit path name args with
      | .ok i => .ok i
      | .error .notAProgram => .ok ⟨"sh", "/bin/sh", path :: args⟩
      | .error e => loadFirst fs name args (if isAbsence e then cause else e) rest

/-- Does something as a program of its own. If a signal ends it, that is told. -/
def asProgram (act : Act Unit) : Act Unit := fun s =>
  match act s with
  | .ok _ t => .ok () (s.after t)
  | .error (.killed n) t =>
      let back := (s.after t).write 2 (Builtin.obituary n).toUTF8
      .ok () { back with status := 128 + n }
  | .error .exhausted t => .error .exhausted (s.after t)
  | .error _ t => .ok () (s.after t)

/-- Starts a program and waits for its end. -/
def spawn (perform : Perform) (paths : List String) (name : String) (args : List String) :
    Act Unit := do
  let s ← get
  match loadFirst s.files name args .notFound paths with
  | .ok i => asProgram (perform (.launch i s.environment))
  | .error e => Act.reject (startStatus e) (name ++ ": " ++ reasonFor "not found" e)

/-- Runs a program that starts no others. -/
def runProgram (program : Program) (i : Program.Invocation) (environment : List (String × String)) :
    Act Unit :=
  modify fun s =>
    let o := program
      { name := i.calledBy
        args := i.args
        environment
        input := s.unread 0
        seekable := (s.placeOf? 0).isSome
        inputFault := s.faultOf? 0
        output := s.placeOf? 1
        files := s.files }
    let s := { s with files := { o.files with here := s.files.here } }.advance 0 o.consumed
    let s := o.writes.reverse.foldl (fun s (channel, bytes) =>
      s.write (if channel = .output then 1 else 2) bytes) s
    { s with status := o.status }

/-! ## Commands that run others -/

/-- Runs its arguments as a script. -/
def evaluate (perform : Perform) (tested : Bool) : Builtin := fun args =>
  perform (.script tested (" ".intercalate args))

/-- The path of a script that is to be read in. -/
def scriptPath? (s : State) (name : String) : Option String :=
  if name.toList.contains '/' then some name
  else
    (Program.candidates ((s.value? "PATH").getD "") name).find? fun path => s.files.isFile ⟨path⟩

/-- Runs the commands of a file. -/
def readIn (perform : Perform) : Builtin := fun args => do
  let o ← Builtin.options "" "" {} args
  match o.operands with
  | [] => Act.setStatus 0
  | name :: _ =>
      let s ← get
      match scriptPath? s name with
      | none => Act.fail (name ++ ": not found")
      | some path =>
          match s.files.read ⟨path⟩ with
          | .error .isAFolder => Act.setStatus 0
          | .error e => Act.fail ("cannot open " ++ path ++ ": " ++ reasonFor "No such file" e)
          | .ok bytes =>
              let script := perform (.script false (Text.decodeLossy bytes))
              match ← Act.attempt (Act.named (some path) script) with
              | some .returned => pure ()
              | jump => Act.rethrow jump

/-- Becomes another program. -/
def become (perform : Perform) : Builtin := fun args => do
  let o ← Builtin.options "" "" {} args
  match o.operands with
  | [] => Act.setStatus 0
  | name :: args =>
      let s ← get
      match s.searchFor (s.value? "PATH") name >>= loadFirst s.files name args .notFound with
      | .ok i =>
          perform (.launch i s.environment)
          modify fun s => { s with traps := s.traps.filter (·.1 ≠ 0) }
      | .error e => Act.reject (startStatus e) (name ++ ": " ++ reasonFor "not found" e)
      throw .exit

/-- Tells what a command name stands for. -/
def tellCommand : Builtin := fun args => do
  let o ← Builtin.options "pvV" "" {} args
  if o.has 'V' then Builtin.explain true (o.operands.take 1)
  else if o.has 'v' then Builtin.explain false (o.operands.take 1)
  else Act.setStatus 0

/-- The command of a name that the shell carries out itself. -/
def builtin (perform : Perform) (tested : Bool) (name : String) : Builtin :=
  match name with
  | "." => readIn perform
  | "bg" => fun _ => Act.fail "No current job"
  | "break" => Builtin.leaveLoop .broken
  | "cd" => Builtin.changeFolder
  | "chdir" => Builtin.changeFolder
  | "command" => tellCommand
  | "continue" => Builtin.leaveLoop .continued
  | "echo" => Builtin.echo
  | "eval" => evaluate perform tested
  | "exec" => become perform
  | "exit" => Builtin.exit
  | "export" => Builtin.declare "export" (·.exported) fun v => { v with exported := true }
  | "false" => fun _ => Act.setStatus 1
  | "fg" => fun _ => Act.fail "No current job"
  | "getopts" => Builtin.getOption
  | "kill" => Builtin.kill
  | "local" => Builtin.localize
  | "printf" => Builtin.print
  | "pwd" => Builtin.showFolder
  | "read" => Builtin.read
  | "readonly" => Builtin.declare "readonly" (·.fixed) fun v => { v with fixed := true }
  | "return" => Builtin.leave
  | "set" => Builtin.set
  | "shift" => Builtin.shift
  | "test" => Builtin.test name
  | "[" => Builtin.test name
  | "trap" => Builtin.trap
  | "type" => Builtin.type
  | "umask" => Builtin.mask
  | "unset" => Builtin.unset
  | "wait" => Builtin.wait
  | _ => fun _ => Act.setStatus 0

/-! ## Simple commands -/

/-- A command and its arguments, after `command` was taken away from in front of them. -/
structure CommandLine where
  name : String
  args : List String
  /-- Functions are passed over, and nothing is special about the command. -/
  plain : Bool

/-- Takes `command` away, unless it is the command itself that is asked for. -/
def commandLine (s : State) (plain : Bool) : List String → Option CommandLine
  | [] => none
  | "command" :: rest =>
      if !plain && (s.functions.lookup "command").isSome then some ⟨"command", rest, plain⟩
      else
        match rest with
        | "--" :: name :: args => some ((commandLine s true (name :: args)).getD ⟨name, args, true⟩)
        | "-p" :: name :: args => some ((commandLine s true (name :: args)).getD ⟨name, args, true⟩)
        | name :: args =>
            if name.toList.head? = some '-' then some ⟨"command", rest, plain⟩
            else some ((commandLine s true (name :: args)).getD ⟨name, args, true⟩)
        | [] => some ⟨"command", [], plain⟩
  | name :: args => some ⟨name, args, plain⟩

/-- Commands whose arguments set variables. -/
def declares (args : List String) : Bool :=
  match args.dropWhile (· = "command") with
  | name :: _ => name = "export" || name = "readonly" || name = "local"
  | [] => false

/-- Expands the words of a command. Arguments that set variables are not divided. -/
def expandWords (perform : Perform) : List String → List Word → Act (List String)
  | args, [] => return args
  | args, w :: rest => do
      if declares args && w.isAssignment then
        let (name, value) ← Expansion.assignment (outputOf perform) w
        expandWords perform (args ++ [name ++ "=" ++ value]) rest
      else expandWords perform (args ++ (← Expansion.fields (outputOf perform) w)) rest

/-- Shows a command before it is run, where that was asked for. -/
def trace (errors : Option Nat) (assigned : List (String × String)) (args : List String) :
    Act Unit := do
  let s ← get
  if s.has 'x' then
    let words := assigned.map (fun (name, value) => name ++ "=" ++ value) ++ args
    let line := (s.value? "PS4").getD "+ " ++ " ".intercalate words ++ "\n"
    match errors with
    | some stream => modify (·.writeStream stream line.toUTF8)
    | none => pure ()

/-- Sets variables in front of a command, and tells what they were before. -/
def assignAll (perform : Perform) (exported : Bool) :
    List Word → Act (List (String × String) × List (String × Option Variable))
  | [] => return ([], [])
  | w :: rest => do
      let (name, value) ← Expansion.assignment (outputOf perform) w
      let old := (← get).variableOf? name
      Act.setVariable name value
      if exported then
        modify fun s => s.putVariable name { (s.variableOf? name).getD {} with exported := true }
      let (assigned, saved) ← assignAll perform exported rest
      return ((name, value) :: assigned, (name, old) :: saved)

/-- Gives variables back what they were. -/
def restore (saved : List (String × Option Variable)) (s : State) : State :=
  saved.foldr (fun (name, old) s =>
    match old with
    | some v => s.putVariable name v
    | none => s.dropVariable name) s

/-- How many functions may be running at a time. -/
def callLimit : Nat := 1000

/-- Calls a function. -/
def call (perform : Perform) (tested : Bool) (body : Tree) (args : List String) : Act Unit := do
  let s ← get
  if callLimit ≤ s.calls then
    Act.fail ("Maximum function recursion depth (" ++ toString callLimit ++ ") reached")
  set { s with parameters := args, loops := 0, calls := s.calls + 1, hidden := [] :: s.hidden }
  let jump ← Act.attempt (perform (.tree tested body))
  modify fun t =>
    { restore (t.hidden.head?.getD []) t with
      parameters := s.parameters
      loops := s.loops
      calls := s.calls
      hidden := s.hidden }
  match jump with
  | some .returned => pure ()
  | jump => Act.rethrow jump

/-- Carries out a command of the shell. An error ends the script only if the command is special. -/
def runBuiltin (act : Act Unit) (name : String) (special : Bool) : Act Unit := do
  modify fun s => { s with lost := false }
  let jump ← Act.attempt (Act.named (some name) act)
  if (← get).lost then
    modify fun s => { s with lost := false }
    Act.named (some name) (Act.reject 1 (name ++ ": I/O error"))
  match jump with
  | some .error => if special then throw .error
  | jump => Act.rethrow jump

/-- Runs a command whose words are expanded. -/
def dispatch (perform : Perform) (tested : Bool) (c : CommandLine) : Act Unit := do
  match (← get).meaning (!c.plain) c.name with
  | .special => runBuiltin (builtin perform tested c.name c.args) c.name (!c.plain)
  | .builtin => runBuiltin (builtin perform tested c.name c.args) c.name false
  | .function body => call perform tested body c.args
  | .program paths => spawn perform paths c.name c.args
  | .missing e => Act.reject 127 (c.name ++ ": " ++ reasonFor "not found" e)

/-- Runs a simple command: its words are expanded, then its channels are led elsewhere, then its
variables are set. -/
def simple (perform : Perform) (tested : Bool) (line : Nat) (assignments words : List Word)
    (redirections : List Redirection) : Act Unit := do
  modify fun s => { s with line, substituted := none }
  let args ← expandWords perform [] words
  let command := commandLine (← get) false args
  let special := command.any fun c => !c.plain && specialBuiltins.contains c.name
  let redirects ← redirections.mapM (Redirect.ofRedirection (outputOf perform))
  let before ← get
  let errors := before.streamOf? 2
  let keeps := command.any fun c => c.name = "exec"
  if ← Redirect.performAll (outputOf perform) redirects then
    let lasting := special || command.isNone
    let (assigned, saved) ← assignAll perform (!lasting || (keeps && args.length > 1)) assignments
    trace errors assigned args
    let jump ← Act.attempt (match command with
      | none => do Act.setStatus ((← get).substituted.getD 0)
      | some c => dispatch perform tested c)
    if !lasting then modify (restore saved)
    if !keeps then modify fun s => { s with channels := before.channels }
    Act.rethrow jump
  else
    modify fun s => { s with channels := before.channels }
    if special then throw .error

/-! ## Compound commands -/

/-- Ends the script after a failure, where that was asked for. -/
def checkStatus (tested : Bool) : Act Unit := do
  let s ← get
  if !tested && s.status ≠ 0 && s.has 'e' then throw .exit

/-- What a jump means for a loop that it leaves. -/
inductive LoopStep where
  | proceed
  | stop
  | out (j : Jump)

def loopStep : Option Jump → LoopStep
  | none => .proceed
  | some (.broken n) => if n ≤ 1 then .stop else .out (.broken (n - 1))
  | some (.continued n) => if n ≤ 1 then .proceed else .out (.continued (n - 1))
  | some j => .out j

/-- How often a loop may be run. -/
def loopLimit : Nat := 1000000

/-- Runs a loop; the status is that of the body when it was last run. -/
def iterate (perform : Perform) (tested untilSuccess : Bool) (test body : Tree) :
    Nat → Nat → State → EStateM.Result Jump State Unit
  | 0, _, s => .error .exhausted s
  | n + 1, status, s =>
      let stop (t : State) : EStateM.Result Jump State Unit := .ok () { t with status }
      let turn (t : State) : Option Jump × State :=
        match perform (.tree tested body) t with
        | .ok _ t => (none, t)
        | .error j t => (some j, t)
      let (jump, t) :=
        match perform (.tree true test) s with
        | .ok _ t => (none, t)
        | .error j t => (some j, t)
      match jump, loopStep jump with
      | some _, .proceed => iterate perform tested untilSuccess test body n status t
      | _, .stop => stop t
      | _, .out j => .error j t
      | none, .proceed =>
          if (t.status = 0) = untilSuccess then stop t
          else
            let (jump, t) := turn t
            match loopStep jump with
            | .proceed => iterate perform tested untilSuccess test body n t.status t
            | .stop => .ok () t
            | .out j => .error j t

/-- Runs a body for each of some values. -/
def forEach (perform : Perform) (tested : Bool) (name : String) (body : Tree) :
    List String → Act Unit
  | [] => pure ()
  | value :: rest => do
      Act.setVariable name value
      match loopStep (← Act.attempt (perform (.tree tested body))) with
      | .proceed => forEach perform tested name body rest
      | .stop => pure ()
      | .out j => throw j

/-- Does something inside a loop. -/
def inLoop (act : Act Unit) : Act Unit := do
  modify fun s => { s with loops := s.loops + 1 }
  let jump ← Act.attempt act
  modify fun s => { s with loops := s.loops - 1 }
  Act.rethrow jump

/-- Runs the commands of a pipeline one after the other. Each reads what the one before it wrote. -/
def runPipeline (perform : Perform) (tested : Bool) : List Tree → Act Unit
  | [] => pure ()
  | [last] => subshell perform (perform (.tree tested last))
  | first :: rest => do
      let s ← get
      let (stream, inner) := s.addStream (.buffer .empty 0)
      set (inner.connect 1 stream)
      subshell perform (perform (.tree tested first))
      modify fun t => { t with channels := s.channels }.connect 0 stream
      runPipeline perform tested rest

/-- Whether a command does nothing but wait. -/
def isLasting : Tree → Bool
  | .simple _ [] (w :: _) _ => w.literal? = some "sleep"
  | _ => false

/-- Runs a command by itself. It has nothing to read. -/
def runBackground (perform : Perform) (body : Tree) : Act Unit := do
  let s ← get
  let (stream, inner) := s.addStream .void
  set (inner.connect 0 stream)
  subshell perform (perform (.tree false body))
  modify fun t =>
    let job : Job := ⟨t.nextProcess, .status t.status, isLasting body⟩
    { t with
      channels := s.channels
      status := 0
      nextProcess := t.nextProcess + 1
      jobs := s.jobs ++ [job]
      latestJob := some job.process }

/-- The first branch of which a pattern matches. -/
def chooseBranch (perform : Perform) (subject : String) : List Branch → Act (Option Tree)
  | [] => return none
  | .when patterns body :: rest => do
      if ← patterns.anyM fun w => do
          return Pattern.isMatch (← Expansion.pattern (outputOf perform) w) subject then
        return some body
      else chooseBranch perform subject rest

/-- Does something with channels led elsewhere, or something else if they cannot be. -/
def redirected (perform : Perform) (line : Nat) (redirections : List Redirection)
    (act otherwise : Act Unit) : Act Unit := do
  modify fun s => { s with line }
  let redirects ← redirections.mapM (Redirect.ofRedirection (outputOf perform))
  Act.keepingChannels do
    if ← Redirect.performAll (outputOf perform) redirects then act else otherwise

def runTree (perform : Perform) (tested : Bool) : Tree → Act Unit
  | .nothing => pure ()
  | .simple line assignments words redirections => do
      simple perform tested line assignments words redirections
      dealWithAll perform
      checkStatus tested
  | .function name body =>
      modify fun s =>
        { s with functions := (name, body) :: s.functions.filter (·.1 ≠ name), status := 0 }
  | .negation body => do
      perform (.tree true body)
      modify fun s => { s with status := if s.status = 0 then 1 else 0 }
  | .both first second => do
      perform (.tree true first)
      if (← get).status = 0 then perform (.tree tested second)
  | .either first second => do
      perform (.tree true first)
      if (← get).status ≠ 0 then perform (.tree tested second)
  | .sequence first second => do
      perform (.tree tested first)
      perform (.tree tested second)
  | .background body => runBackground perform body
  | .pipeline commands => do
      Act.keepingChannels (runPipeline perform tested commands)
      dealWithAll perform
      checkStatus tested
  | .subshell line body redirections => do
      modify fun s => { s with line }
      subshell perform
        (redirected perform line redirections (perform (.tree tested body)) (pure ()))
      dealWithAll perform
      checkStatus tested
  | .redirected line body redirections => do
      redirected perform line redirections (perform (.tree tested body)) (checkStatus tested)
  | .conditional test yes no => do
      perform (.tree true test)
      if (← get).status = 0 then perform (.tree tested yes)
      else
        match no with
        | some no => perform (.tree tested no)
        | none => Act.setStatus 0
  | .loop untilSuccess test body =>
      inLoop fun s => iterate perform tested untilSuccess test body loopLimit 0 s
  | .each line name words body => do
      modify fun s => { s with line }
      let values ← Expansion.allFields (outputOf perform) words
      if values.isEmpty then Act.setStatus 0
      else inLoop (forEach perform tested name body values)
  | .choice line subject branches => do
      modify fun s => { s with line }
      let subject ← Expansion.text (outputOf perform) subject
      match ← chooseBranch perform subject branches with
      | some .nothing => Act.setStatus 0
      | some body => perform (.tree tested body)
      | none => Act.setStatus 0

end Evaluation

end Docset.Shell
