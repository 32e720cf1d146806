import Docset.Shell.Evaluation

/-!
# Starting programs and shells

A program is started with an environment. Most programs are plain functions; a
shell and `env` start others in turn. A shell takes its script from an argument,
from a file or from its input.

Tasks are nested only so deep, which stands for the room that a process has for
them: what goes deeper ends as a process without room does.
-/
namespace Docset.Shell

/-- Where a shell takes its script from. -/
inductive ScriptSource where
  | text (script : String)
  | file (path : String)
  | input
  deriving DecidableEq, Repr

namespace Launch

/-! ## The arguments of a shell -/

/-- Takes the options of one argument; whether the script is an argument, and whether a name for
an option is still to come. -/
def startLetters (on : Bool) : List Char → Bool → Bool → Act (Bool × Bool)
  | [], asText, named => return (asText, named)
  | c :: rest, asText, named => do
      if c = 'c' then startLetters on rest true named
      else if c = 'o' then startLetters on rest asText true
      else if c = 'l' then startLetters on rest asText named
      else
        Builtin.setOption on c
        startLetters on rest asText named

/-- Takes the options of a shell; whether the script is an argument, and what follows. -/
def startOptions (asText : Bool) : List String → Act (Bool × List String)
  | [] => return (asText, [])
  | arg :: rest =>
      let letters (on : Bool) (cs : List Char) : Act (Bool × List String) := do
        match ← startLetters on cs asText false with
        | (asText, false) => startOptions asText rest
        | (asText, true) =>
            match rest with
            | name :: rest =>
                Builtin.setNamedOption on name
                startOptions asText rest
            | [] => return (asText, [])
      match arg.toList with
      | ['-'] => return (asText, rest)
      | ['-', '-'] => return (asText, rest)
      | '-' :: cs => letters true cs
      | '+' :: cs => letters false cs
      | _ => return (asText, arg :: rest)

/-- Finds the script among the arguments; what follows it names the shell and sets parameters. -/
def findScript (args : List String) : Act ScriptSource := do
  match ← startOptions false args with
  | (true, []) => Act.fail "-c requires an argument"
  | (true, text :: rest) =>
      modify fun s => { s with name := rest.head?.getD s.name, parameters := rest.drop 1 }
      return .text text
  | (false, []) =>
      Builtin.setOption true 's'
      return .input
  | (false, path :: parameters) =>
      if (← get).has 's' then
        modify fun s => { s with parameters := path :: parameters }
        return .input
      else
        modify fun s => { s with parameters }
        return .file path

/-- The text of a script. -/
def scriptText : ScriptSource → Act String
  | .text script => return script
  | .input => do
      let bytes := (← get).unread 0
      modify (·.advance 0 bytes.size)
      return Text.decodeLossy bytes
  | .file path => do
      match (← get).files.read ⟨path⟩ with
      | .ok bytes =>
          modify fun s => { s with name := path }
          return Text.decodeLossy bytes
      | .error .isAFolder => return ""
      | .error e => Act.fail ("cannot open " ++ path ++ ": " ++ reasonFor "No such file" e)

/-! ## A new shell -/

/-- The current folder of a new shell: as the environment names it, if that is true. -/
def startFolder (files : FileSystem) (environment : List (String × String)) : String :=
  let known := environment.lookup "PWD"
  match known with
  | some path =>
      if (Path.mk path).isAbsolute && (files.stat ⟨path⟩).toOption.any (·.1 = files.here) then path
      else files.here.path.text
  | none => files.here.path.text

/-- A shell that is about to read its arguments. -/
def newShell (s : State) (name : String) (environment : List (String × String)) : State :=
  let folder := startFolder s.files environment
  let plain : List (String × String) :=
    [("IFS", " \t\n"), ("OPTIND", "1"), ("PATH", Program.searchPath), ("PPID", toString s.process),
      ("PS1", "# "), ("PS2", "> "), ("PS4", "+ ")]
  let shell : State :=
    { files := s.files
      streams := s.streams
      channels := s.channels
      name
      traps := s.traps.filter (·.2 = "")
      process := s.nextProcess
      nextProcess := s.nextProcess + 1
      folder
      documents := s.documents
      nextDocument := s.nextDocument }
  let shell := plain.foldl (fun t (name, value) => t.putVariable name { value }) shell
  let shell := environment.foldl (fun t (name, value) =>
    if isName name && name ≠ "IFS" then t.putVariable name { value, exported := true } else t) shell
  shell.putVariable "PWD" { value := folder, exported := true }

/-- Runs a shell to its end. -/
def runShell (perform : Perform) (args : List String) : Act Unit := do
  let jump ← Act.attempt do
    let text ← scriptText (← findScript args)
    perform (.script false text)
  match jump with
  | some (.killed n) => throw (.killed n)
  | some .exhausted => throw .exhausted
  | _ => Evaluation.atEnd perform

/-- The signal that ends a process without room. -/
def overflow : Nat := 11

/-- Starts a shell. -/
def startShell (perform : Perform) (i : Program.Invocation)
    (environment : List (String × String)) : Act Unit := fun s =>
  let back (t : State) : State := s.after { t with caught := s.caught }
  match runShell perform i.args (newShell s i.calledBy environment) with
  | .ok _ t => .ok () (back t)
  | .error (.killed n) t => .error (.killed n) (back t)
  | .error .exhausted t => .error (.killed overflow) (back t)
  | .error _ t => .ok () (back t)

/-! ## Other environments -/

/-- Changes an environment as arguments say; the rest of them is a command. -/
def changeEnvironment (environment : List (String × String)) :
    List String → List (String × String) × List String
  | [] => (environment, [])
  | "-" :: rest => changeEnvironment [] rest
  | "-i" :: rest => changeEnvironment [] rest
  | "--" :: rest => changeEnvironment environment rest
  | "-u" :: name :: rest => changeEnvironment (environment.filter (·.1 ≠ name)) rest
  | arg :: rest =>
      match Builtin.splitAssignment arg with
      | (name, some value) =>
          changeEnvironment (environment.filter (·.1 ≠ name) ++ [(name, value)]) rest
      | (_, none) => (environment, arg :: rest)

/-- The paths that a system call takes a program's name for. -/
def systemPaths (environment : List (String × String)) (name : String) : List String :=
  if name.toList.contains '/' then [name]
  else Program.candidates ((environment.lookup "PATH").getD "/bin:/usr/bin") name

/-- Starts the program of a name in an environment. One that cannot be started is complained about
in the name of the program that wanted it. -/
def startNamed (perform : Perform) (calledBy shown name : String) (args : List String)
    (environment : List (String × String)) : Act Unit := do
  let paths := systemPaths environment name
  match Evaluation.loadFirst (← get).files name args .notFound paths with
  | .ok i => perform (.launch i environment)
  | .error e =>
      modify (·.write 2 (calledBy ++ ": " ++ shown ++ ": " ++ e.reason ++ "\n").toUTF8)
      Act.setStatus (startStatus e)

/-- Runs a command in another environment. -/
def startElsewhere (perform : Perform) (i : Program.Invocation)
    (environment : List (String × String)) : Act Unit := do
  match changeEnvironment environment i.args with
  | (environment, []) =>
      Act.say (String.join (environment.map fun (name, value) => name ++ "=" ++ value ++ "\n"))
      Act.setStatus 0
  | (environment, name :: args) =>
      startNamed perform i.calledBy (Program.quote name) name args environment

/-- Runs a command as it is. -/
def startAs (perform : Perform) (i : Program.Invocation)
    (environment : List (String × String)) : Act Unit :=
  match i.args with
  | name :: args =>
      startNamed perform i.calledBy (Program.quote name) name args environment
  | [] => Act.setStatus 0

/-! ## Arguments from input -/

/-- What is asked of `xargs`. -/
structure Collection where
  /-- How many items each command gets. -/
  most : Option Nat := none
  /-- A text that stands for an item in the command. -/
  placeholder : Option String := none
  /-- No command is run without items. -/
  onlySome : Bool := false
  /-- Items are divided by the character that ends system strings. -/
  divided : Bool := false
  command : List String := []

def readCollection (k : Collection) : List String → Collection
  | "-n" :: n :: rest => readCollection { k with most := Program.natural? n } rest
  | "-I" :: s :: rest => readCollection { k with placeholder := some s } rest
  | "-r" :: rest => readCollection { k with onlySome := true } rest
  | "-0" :: rest => readCollection { k with divided := true } rest
  | arg :: rest =>
      match arg.toList with
      | '-' :: 'n' :: n =>
          readCollection { k with most := Program.natural? (String.ofList n) } rest
      | '-' :: 'I' :: s => readCollection { k with placeholder := some (String.ofList s) } rest
      | _ => { k with command := arg :: rest }
  | [] => { k with command := ["echo"] }

/-- The items of an input: words, of which parts may be quoted. -/
def inputItems : (quote : Option Char) → (item : Option (List Char)) → List Char → List String
  | _, item, [] => item.toList.map fun cs => String.ofList cs.reverse
  | some q, item, c :: rest =>
      if c = q then inputItems none item rest
      else inputItems (some q) (some (c :: item.getD [])) rest
  | none, item, '\\' :: c :: rest => inputItems none (some (c :: item.getD [])) rest
  | none, item, c :: rest =>
      if c = '\'' || c = '"' then inputItems (some c) (some (item.getD [])) rest
      else if c = ' ' || c = '\t' || c = '\n' then
        (item.toList.map fun cs => String.ofList cs.reverse) ++ inputItems none none rest
      else inputItems none (some (c :: item.getD [])) rest

/-- Lists of at most so many items. -/
def chunks (n : Nat) : Nat → List String → List (List String)
  | 0, _ => []
  | fuel + 1, items =>
      if items.length ≤ n || n = 0 then [items]
      else items.take n :: chunks n fuel (items.drop n)

/-- The commands that are run on an input. -/
def Collection.commands (k : Collection) (text : String) : List (List String) :=
  let divide (c : Char) : List String :=
    ((Text.split (· = c) text.toList).filter (!·.isEmpty)).map String.ofList
  match k.placeholder with
  | some s => (divide '\n').map fun item =>
      k.command.map fun word => if s = "" then word else item.intercalate (word.splitOn s)
  | none =>
      let items := if k.divided then divide '\x00' else inputItems none none text.toList
      if items.isEmpty && k.onlySome then []
      else (chunks (k.most.getD 0) (items.length + 1) items).map (k.command ++ ·)

/-- Runs commands on items of the input. The status tells whether all of them succeeded. -/
def collect (perform : Perform) (i : Program.Invocation) (environment : List (String × String)) :
    Act Unit := do
  let s ← get
  let bytes := s.unread 0
  let (stream, inner) := (s.advance 0 bytes.size).addStream .void
  set (inner.connect 0 stream)
  let commands := (readCollection {} i.args).commands (Text.decodeLossy bytes)
  let statuses ← commands.mapM fun command => do
    match command with
    | [] => return 0
    | name :: args =>
        Evaluation.asProgram (startNamed perform i.calledBy name name args environment)
        return (← get).status
  let bad := statuses.find? (· ≠ 0)
  Act.setStatus (match bad with
    | none => 0
    | some n => if n = 126 || n = 127 then n else if 128 < n then 125 else 123)

/-- Runs a program. -/
def launch (perform : Perform) (i : Program.Invocation) (environment : List (String × String)) :
    Act Unit :=
  match i.program with
  | "sh" => startShell perform i environment
  | "dash" => startShell perform i environment
  | "env" => startElsewhere perform i environment
  | "nice" => startAs perform i environment
  | "nohup" => startAs perform i environment
  | "xargs" => collect perform i environment
  | name =>
      match Program.table.lookup name with
      | some program => Evaluation.runProgram program i environment
      | none => Act.setStatus 127

end Launch

/-- Carries out tasks that are nested at most so deep. -/
def perform : Nat → Perform
  | 0, _ => throw .exhausted
  | depth + 1, .tree tested t => do
      if (← get).has 'n' then pure () else Evaluation.runTree (perform depth) tested t
  | depth + 1, .script tested text => Evaluation.runScript (perform depth) tested text
  | depth + 1, .launch i environment => Launch.launch (perform depth) i environment

/-- How deep tasks may be nested. -/
def depthLimit : Nat := 20000

end Docset.Shell
