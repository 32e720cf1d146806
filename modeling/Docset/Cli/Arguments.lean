import Docset.Files.Path

/-!
# The command line

The program is called with a command and its arguments, or with nothing for a build
of the current folder. Options are written long or short; short ones can be run
together, and a value can be attached, with an equals sign if wanted. Nothing may
be given twice at one level. After `--` only operands follow. Two switches are
understood at every level.
-/
namespace Docset.Cli

inductive Switch where
  | verbose
  | quiet
  | version
  | skipExternal
  deriving DecidableEq, Repr

/-- Options that take a value. -/
inductive Setting where
  | output
  | format
  | lead
  deriving DecidableEq, Repr

inductive Command where
  | build (path : Path) (output : Option Path) (skipExternal : Bool)
  | scan (path : Path) (format : String)
  | compose (path : Path) (output : Option Path) (format lead : String)
  | configShow
  | configSet (key value : String)
  | configGet (key : String)
  | configReset
  | configPath
  deriving DecidableEq, Repr

structure Invocation where
  verbose : Bool
  command : Command
  deriving DecidableEq, Repr

/-- Why there is nothing to carry out. -/
inductive Stop where
  /-- The arguments make no sense. -/
  | usage
  /-- The version was asked for. -/
  | version
  deriving DecidableEq, Repr

/-- What is understood at one level of the command line. -/
structure Level where
  switches : List (Option Char × String × Switch) := []
  settings : List (Option Char × String × Setting) := []
  /-- How many operands there may be. -/
  operands : Nat := 0
  subcommands : List String := []

/-- What was given at one level, last first. -/
structure Given where
  switches : List Switch := []
  settings : List (Setting × String) := []
  operands : List String := []

namespace Given

def addSwitch (g : Given) (s : Switch) : Except Stop Given :=
  if s = .version then .error .version
  else if g.switches.contains s then .error .usage
  else .ok { g with switches := s :: g.switches }

def addSetting (g : Given) (s : Setting) (value : String) : Except Stop Given :=
  if g.settings.any (·.1 = s) then .error .usage
  else .ok { g with settings := (s, value) :: g.settings }

def addOperand (g : Given) (limit : Nat) (value : String) : Except Stop Given :=
  if g.operands.length < limit then .ok { g with operands := value :: g.operands }
  else .error .usage

def setting? (g : Given) (s : Setting) : Option String := g.settings.lookup s

end Given

/-- Whether an argument is written like an option. -/
def looksLikeOption (arg : String) : Bool := arg.toList.head? = some '-' && arg ≠ "-"

namespace Level

def switchNamed? (l : Level) (name : String) : Option Switch :=
  (l.switches.find? (·.2.1 = name)).map (·.2.2)

def settingNamed? (l : Level) (name : String) : Option Setting :=
  (l.settings.find? (·.2.1 = name)).map (·.2.2)

/-- Reads options that are run together. A setting takes the rest as its value; if there is no
rest, it is left waiting for one. -/
def readShort (l : Level) (g : Given) : List Char → Except Stop (Given × Option Setting)
  | [] => .ok (g, none)
  | c :: rest =>
      match l.switches.find? (·.1 = some c) with
      | some (_, _, switch) =>
          match g.addSwitch switch with
          | .ok g => readShort l g rest
          | .error stop => .error stop
      | none =>
          match l.settings.find? (·.1 = some c) with
          | some (_, _, setting) =>
              match rest with
              | [] => .ok (g, some setting)
              | '=' :: value => (g.addSetting setting (String.ofList value)).map (·, none)
              | value => (g.addSetting setting (String.ofList value)).map (·, none)
          | none => .error .usage

/-- Reads a long option. -/
def readLong (l : Level) (g : Given) (body : List Char) : Except Stop (Given × Option Setting) :=
  let name := String.ofList (body.takeWhile (· ≠ '='))
  let value? :=
    match body.dropWhile (· ≠ '=') with
    | _ :: value => some (String.ofList value)
    | [] => none
  match l.switchNamed? name, l.settingNamed? name, value? with
  | some switch, _, none => (g.addSwitch switch).map (·, none)
  | none, some setting, some value => (g.addSetting setting value).map (·, none)
  | none, some setting, none => .ok (g, some setting)
  | _, _, _ => .error .usage

/-- Reads one option, which may be left waiting for a value. -/
def readOption (l : Level) (g : Given) (arg : String) : Except Stop (Given × Option Setting) :=
  match arg.toList with
  | '-' :: '-' :: body => l.readLong g body
  | _ :: cluster => l.readShort g cluster
  | [] => .error .usage

/-- Reads a level up to its end or to the name of a subcommand. -/
def read (l : Level) (g : Given) :
    List String → Except Stop (Given × Option (String × List String))
  | [] => .ok (g, none)
  | "--" :: rest => do
      let g ← rest.foldlM (fun g value => g.addOperand l.operands value) g
      return (g, none)
  | [arg] =>
      if l.subcommands.contains arg then .ok (g, some (arg, []))
      else if looksLikeOption arg then
        match l.readOption g arg with
        | .ok (g, none) => .ok (g, none)
        | .ok (_, some _) => .error .usage
        | .error stop => .error stop
      else (g.addOperand l.operands arg).map (·, none)
  | arg :: next :: rest =>
      if l.subcommands.contains arg then .ok (g, some (arg, next :: rest))
      else if looksLikeOption arg then
        match l.readOption g arg with
        | .ok (g, none) => read l g (next :: rest)
        | .ok (g, some setting) =>
            if looksLikeOption next then .error .usage
            else
              match g.addSetting setting next with
              | .ok g => read l g rest
              | .error stop => .error stop
        | .error stop => .error stop
      else
        match g.addOperand l.operands arg with
        | .ok g => read l g (next :: rest)
        | .error stop => .error stop

end Level

/-- The switches of every level. -/
def everywhere : List (Option Char × String × Switch) :=
  [(some 'v', "verbose", .verbose), (some 'q', "quiet", .quiet)]

def topLevel : Level where
  switches := everywhere ++ [(some 'V', "version", .version)]
  subcommands := ["build", "scan", "compose", "config"]

def outputOption : Option Char × String × Setting := (some 'o', "output", .output)

def formatOption : Option Char × String × Setting := (some 'f', "format", .format)

def buildLevel : Level where
  switches := everywhere ++ [(none, "skip-external", .skipExternal)]
  settings := [outputOption]
  operands := 1

def scanLevel : Level where
  switches := everywhere
  settings := [formatOption]
  operands := 1

def composeLevel : Level where
  switches := everywhere
  settings := [outputOption, formatOption, (none, "prefix", .lead)]
  operands := 1

def configLevel : Level where
  switches := everywhere
  subcommands := ["show", "set", "get", "reset", "path"]

/-- A path, which cannot be empty. -/
def readPath (text : String) : Except Stop Path :=
  if text = "" then .error .usage else .ok ⟨text⟩

/-- The path operand of a level, the current folder if it is not given. -/
def pathOperand (g : Given) : Except Stop Path := readPath (g.operands.head?.getD ".")

def outputSetting (g : Given) : Except Stop (Option Path) :=
  match g.setting? .output with
  | some text => (readPath text).map some
  | none => .ok none

/-- Reads a level that has no further level inside. -/
def readLast (l : Level) (args : List String) : Except Stop Given := do
  match ← l.read {} args with
  | (g, none) => return g
  | (_, some _) => throw .usage

/-- Reads a command of the configuration. -/
def readConfigCommand (name : String) (args : List String) :
    Except Stop (List Switch × Command) := do
  let operands :=
    match name with
    | "set" => 2
    | "get" => 1
    | _ => 0
  let g ← readLast { switches := everywhere, operands } args
  let command ←
    match name, g.operands with
    | "show", _ => pure Command.configShow
    | "reset", _ => pure Command.configReset
    | "path", _ => pure Command.configPath
    | "get", [key] => pure (Command.configGet key)
    | "set", [value, key] => pure (Command.configSet key value)
    | _, _ => throw .usage
  return (g.switches, command)

/-- Reads a command of the top level. -/
def readCommand (name : String) (args : List String) : Except Stop (List Switch × Command) := do
  match name with
  | "build" =>
      let g ← readLast buildLevel args
      let command := Command.build (← pathOperand g) (← outputSetting g)
        (g.switches.contains .skipExternal)
      return (g.switches, command)
  | "scan" =>
      let g ← readLast scanLevel args
      return (g.switches, .scan (← pathOperand g) ((g.setting? .format).getD "text"))
  | "compose" =>
      let g ← readLast composeLevel args
      let command := Command.compose (← pathOperand g) (← outputSetting g)
        ((g.setting? .format).getD "json") ((g.setting? .lead).getD "")
      return (g.switches, command)
  | _ =>
      match ← configLevel.read {} args with
      | (g, some (inner, rest)) =>
          let (switches, command) ← readConfigCommand inner rest
          return (g.switches ++ switches, command)
      | (_, none) => throw .usage

/-- What a command line asks for. -/
def Invocation.read (args : List String) : Except Stop Invocation := do
  match ← topLevel.read {} args with
  | (g, none) =>
      return { verbose := g.switches.contains .verbose, command := .build ⟨"."⟩ none false }
  | (g, some (name, rest)) =>
      let (switches, command) ← readCommand name rest
      return { verbose := (g.switches ++ switches).contains .verbose, command }

end Docset.Cli
