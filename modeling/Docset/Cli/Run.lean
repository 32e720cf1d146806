import Docset.Build.Run
import Docset.Cli.Arguments
import Docset.Cli.EnvFile
import Docset.Manifest.Page
import Docset.Text.ByteSize

/-!
# Carrying out commands

What the program prints, what it changes and how it ends. Nothing is printed by a
command that fails. The configuration is loaded before anything else is done, so
even commands that do not need it fail with a broken one.
-/
namespace Docset.Cli

/-- How a run of the program ends. -/
structure Outcome where
  code : Nat
  stdout : String := ""
  /-- What is said about a failure. -/
  report : Option String := none
  deriving DecidableEq, Repr

/-- The end of a run that the program itself is at fault for. -/
def Outcome.fault : Outcome := { code := 101 }

/-- Why a command failed. -/
inductive Failure where
  | operation (e : Error)
  /-- What came on standard input could not be scanned at all. -/
  | scanner (e : Scan.Error)
  /-- Something went wrong while doing what `doing` says. -/
  | during (doing : String) (cause : String)
  | plain (message : String)
  deriving DecidableEq, Repr

namespace Failure

def message : Failure → String
  | operation e => e.message
  | scanner e => e.message
  | during doing _ => doing
  | plain message => message

def causes : Failure → List String
  | operation e => e.causes
  | scanner e => e.causes
  | during _ cause => [cause]
  | plain _ => []

/-- A cause on lines of its own, which keep clear of what stands before the first one. -/
def causeLines (lead margin cause : String) : String :=
  "\n" ++ lead ++
    ("\n" ++ margin).intercalate ((Text.split (· = '\n') cause.toList).map String.ofList)

/-- The message with what lies behind it. Several causes are numbered. -/
def report (f : Failure) : String :=
  "Error: " ++ f.message ++
    match f.causes with
    | [] => ""
    | [cause] => "\n\nCaused by:" ++ causeLines "    " "    " cause
    | causes =>
        "\n\nCaused by:" ++ String.join (causes.mapIdx fun n cause =>
          causeLines ("    " ++ toString n ++ ": ") "       " cause)

/-- A limit that cannot be computed is a fault of the program, not a report to its user. -/
def outcome : Failure → Outcome
  | operation .sizeOverflow => .fault
  | f => { code := 1, report := some f.report }

end Failure

def lines (ls : List String) : String := String.join (ls.map (· ++ "\n"))

def groupLines (groups : List Story.Group) : List String :=
  groups.flatMap fun g => ("  " ++ g.name) :: g.variants.map ("    - " ++ ·)

def reportLines (r : Survey.Report) : List String :=
  r.files.flatMap (fun f => f.path.text :: groupLines f.groups) ++
    r.failures.map (fun f => f.path.text ++ " (skipped: " ++ f.error ++ ")") ++
    ["", toString r.files.length ++ " files, " ++ toString r.groupCount ++ " groups, " ++
      toString r.variantCount ++ " variants, " ++ toString r.failures.length ++ " skipped"]

def sourceLabel : Build.Source → String
  | .external => "extracted story metadata"
  | .scanned => "scanned story sources"
  | .degraded => "generic entry (no stories found)"

def surveyLines (r : Survey.Report) : List String :=
  ("🗂  Scanned:    " ++ toString r.files.length ++ " files, " ++ toString r.groupCount ++
    " groups, " ++ toString r.variantCount ++ " variants (" ++
    Text.byteSize r.bytesScanned.toNat ++ ")") ::
    r.failures.map fun f => "   ✗ " ++ f.path.text ++ ": " ++ f.error

/-- The summary of a build. -/
def buildLines (r : Build.Response) (verbose : Bool) : List String :=
  ["📚 Docset manifest", String.ofList (List.replicate 50 '─'),
    "🔍 Source:     " ++ sourceLabel r.source, "📄 Entries:    " ++ toString r.entryCount] ++
    r.externalError.toList.map ("⚠\uFE0F  External:   " ++ ·) ++
    r.report.toList.flatMap surveyLines ++
    r.manifestPath.toList.map ("💾 Manifest:   " ++ ·.text) ++
    r.included.toList.map ("📦 Storybook:  " ++ ·.text) ++
    if verbose then "" :: r.entries.entries.pairs.map fun p => "   " ++ p.1 ++ " → " ++ p.2 else []

/-- Whether a word is one of some small ASCII words, up to case. -/
def matchesWord (word : String) (accepted : List String) : Bool :=
  accepted.contains (String.ofList (Text.lower word.toList))

/-- Whether scan results are wanted as JSON. -/
def scanFormat (format : String) : Except Failure Bool :=
  if matchesWord format ["text", "txt"] then .ok false
  else if matchesWord format ["json"] then .ok true
  else .error (.plain ("Unknown format: " ++ format ++ ". Use 'text' or 'json'"))

/-- Whether a manifest is wanted as a page. -/
def composeFormat (format : String) : Except Failure Bool :=
  if matchesWord format ["json"] then .ok false
  else if matchesWord format ["html", "htm"] then .ok true
  else .error (.plain ("Unknown format: " ++ format ++ ". Use 'json' or 'html'"))

/-- Scans what comes on standard input as one module. -/
def scanInput (host : Host) (c : Config) (stdin : ByteArray) (json : Bool) :
    Except Failure String :=
  match String.fromUTF8? stdin with
  | none => .error (.during "Failed to read stdin" IoError.notText.message)
  | some text => do
      (c.scan.compile host.compile).mapError .scanner
      match Scan.scan c.scan text with
      | .error e => .error (.during "Failed to scan stdin" e.message)
      | .ok groups =>
          .ok (if json then (Json.array (groups.map Story.Group.toJson)).pretty ++ "\n"
            else lines (groupLines groups))

def scan (host : Host) (c : Config) (path : Path) (format : String) (stdin : ByteArray) :
    FileAction Failure String :=
  FileAction.inspect fun fs => do
    let json ← scanFormat format
    if path.same ⟨"-"⟩ then scanInput host c stdin json
    else
      let response ← (Survey.run host fs c ⟨path⟩).mapError .operation
      return if json then response.toJson.pretty ++ "\n" else lines (reportLines response.report)

def build (host : Host) (setting : Command.Setting) (c : Config) (path : Path)
    (output : Option Path) (skipExternal verbose : Bool) : FileAction Failure String := do
  let request : Build.Request :=
    { root := path, output := some (output.getD c.outputDir), skipExternal }
  let response ← (Build.run host setting c request).mapError .operation
  return lines (buildLines response verbose)

def compose (host : Host) (c : Config) (path : Path) (output : Option Path)
    (format lead : String) : FileAction Failure String := do
  let html ← FileAction.inspect fun _ => composeFormat format
  let response ← FileAction.inspect fun fs => (Survey.run host fs c ⟨path⟩).mapError .operation
  let m := response.report.manifest
  let file := output.getD (c.outputDir.join ⟨if html then "entries.html" else "entries.json"⟩)
  let content := if html then m.page lead else m.toJson.pretty
  match file.parent? with
  | some around =>
      (makeFolders around).mapError fun e =>
        .during ("Failed to create output directory: " ++ around.text) e.message
  | none => pure ()
  (FileAction.change (·.write file content.toUTF8)).mapError fun e =>
    .during ("Failed to write output to: " ++ file.text) e.message
  let fileCount := response.report.files.length
  return lines ["Output written to: " ++ file.text,
    "  " ++ toString m.size ++ " entries from " ++ toString fileCount ++ " files"]

/-- Dashes in keys are as good as underscores. -/
def normalizeKey (key : String) : String := key.map fun c => if c = '-' then '_' else c

/-- Fills a text up with spaces. -/
def padRight (width : Nat) (s : String) : String :=
  s ++ String.ofList (List.replicate (width - s.length) ' ')

def configShow (env : Environment) (c : Config) : String :=
  lines (["Storyshelf Configuration", String.ofList (List.replicate 40 '-')] ++
    Config.Key.all.map (fun key => padRight 20 key.name ++ " " ++ c.get key) ++
    match Config.filePath? env with
    | some file => ["", "Config file: " ++ file.text]
    | none => [])

/-- Changes one value of a configuration and saves the whole of it. -/
def configSet (env : Environment) (c : Config) (key value : String) :
    FileAction Failure String := do
  let key := normalizeKey key
  match Config.setNamed key value c with
  | .error e _ =>
      throw (.plain ((Error.config e).message ++ ". Valid keys: " ++
        ", ".intercalate (Config.Key.all.map Config.Key.name)))
  | .ok () changed =>
      (changed.save env).mapError .operation
      return lines ["Set " ++ key ++ " to: " ++ value]

def configGet (c : Config) (key : String) : Except Failure String :=
  let key := normalizeKey key
  match c.get? key with
  | some value => .ok (lines [value])
  | none => .error (.plain ("Unknown config key: " ++ key))

def configReset (env : Environment) : FileAction Failure String := do
  (Config.save env {}).mapError .operation
  return lines ["Configuration reset to defaults"]

def configPath (env : Environment) : String :=
  match Config.filePath? env with
  | some file => lines [file.text]
  | none => lines ["(no config file path available)"]

/-- Carries out a command with a loaded configuration. -/
def carryOut (host : Host) (env : Environment) (stdin : ByteArray) (c : Config)
    (i : Invocation) : FileAction Failure String :=
  match i.command with
  | .build path output skipExternal =>
      build host ⟨env.bindings, stdin⟩ c path output skipExternal i.verbose
  | .scan path format => scan host c path format stdin
  | .compose path output format lead => compose host c path output format lead
  | .configShow => pure (configShow env c)
  | .configSet key value => configSet env c key value
  | .configGet key => FileAction.inspect fun _ => configGet c key
  | .configReset => configReset env
  | .configPath => pure (configPath env)

/-- Runs the program on the arguments that it understood. -/
def runInvocation (host : Host) (env : Environment) (i : Invocation) (stdin : ByteArray)
    (fs : FileSystem) : Outcome × FileSystem :=
  match Config.load host env fs with
  | .error e => ((Failure.operation e).outcome, fs)
  | .ok c =>
      match carryOut host env stdin c i fs with
      | .ok stdout after => ({ code := 0, stdout }, after)
      | .error e after => (e.outcome, after)

/-- Runs the program. -/
def run (host : Host) (env : Environment) (args : List String) (stdin : ByteArray)
    (fs : FileSystem) : Outcome × FileSystem :=
  match Invocation.read args with
  | .error .usage => ({ code := 2 }, fs)
  | .error .version => ({ code := 0, stdout := lines ["shelf 0.1.0"] }, fs)
  | .ok invocation =>
      match EnvFile.load? env fs with
      | some env => runInvocation host env invocation stdin fs
      | none => (.fault, fs)

end Docset.Cli
