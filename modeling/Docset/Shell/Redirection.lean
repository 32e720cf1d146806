import Docset.Shell.Expansion
import Docset.Shell.Search

/-!
# Redirections

Redirections are first expanded and then carried out in order. An expansion that
fails ends the script; a file that cannot be opened only keeps its command from
being run.
-/
namespace Docset.Shell

/-- A redirection whose words are known. -/
inductive Redirect where
  | file (channel : Nat) (opening : Opening) (name : String)
  | copy (channel source : Nat)
  | close (channel : Nat)
  | document (channel number : Nat)
  deriving DecidableEq, Repr

namespace Redirect

/-- Expands the words of a redirection. A channel is named by one digit. -/
def ofRedirection (outputOf : Expansion.OutputOf) : Redirection → Act Redirect
  | .file channel opening name => return .file channel opening (← Expansion.text outputOf name)
  | .document channel number => return .document channel number
  | .duplicate channel target => do
      match (← Expansion.text outputOf target).toList with
      | ['-'] => return .close channel
      | [c] =>
          if c.isDigit then return .copy channel (c.toNat - '0'.toNat)
          else Act.fail "Syntax error: Bad fd number"
      | _ => Act.fail "Syntax error: Bad fd number"

/-- The channel that a name of the system stands for. -/
def channelNamed? (name : String) : Option Nat :=
  match name with
  | "/dev/stdin" => some 0
  | "/dev/stdout" => some 1
  | "/dev/stderr" => some 2
  | _ =>
      if "/dev/fd/".toList.isPrefixOf name.toList then
        Program.natural? (String.ofList (name.toList.drop 8))
      else none

/-- The stream that reads or writes at a place. -/
def streamAt (s : State) (place : Location) (append : Bool) : Stream :=
  match s.files.get? place with
  | some .void => .void
  | _ => .file place 0 append

/-- Opens a file to be read. -/
def openInput (name : String) : Act Stream := do
  let s ← get
  match s.files.stat ⟨name⟩ with
  | .ok (place, _) => return streamAt s place false
  | .error e => Act.fail ("cannot open " ++ name ++ ": " ++ reasonFor "No such file" e)

/-- Opens a file to be written, and creates it if it is missing. -/
def openOutput (opening : Opening) (name : String) : Act Stream := do
  let s ← get
  let refuse (reason : String) : Act Stream :=
    Act.fail ("cannot create " ++ name ++ ": " ++ reason)
  if opening = .output && s.has 'C' && s.files.isFile ⟨name⟩ then
    refuse IoError.alreadyExists.reason
  else
    match s.files.create ⟨name⟩ with
    | .ok (place, files) =>
        let files := if opening = .output then files.fill place .empty else files
        let s := { s with files }
        set s
        return streamAt s place (opening = .append)
    | .error e => refuse (reasonFor "Directory nonexistent" e)

/-- Makes a channel lead to where another one does. -/
def share (channel source : Nat) : Act Unit := do
  match (← get).streamOf? source with
  | some stream => modify (·.connect channel stream)
  | none => Act.fail (toString source ++ ": Bad file descriptor")

/-- Makes a channel lead to a new stream. -/
def attach (channel : Nat) (stream : Stream) : Act Unit :=
  modify fun s =>
    let (number, s) := s.addStream stream
    s.connect channel number

def perform (outputOf : Expansion.OutputOf) : Redirect → Act Unit
  | .file channel opening name => do
      match channelNamed? name with
      | some source => share channel source
      | none =>
          attach channel (← if opening = .input then openInput name else openOutput opening name)
  | .copy channel source => share channel source
  | .close channel => modify (·.disconnect channel)
  | .document channel number => do
      attach channel (.buffer (← Expansion.document outputOf number).toUTF8 0)

/-- Carries out redirections up to the first that fails, and says whether all could be. -/
def performAll (outputOf : Expansion.OutputOf) (redirects : List Redirect) : Act Bool := fun s =>
  match redirects.forM (perform outputOf) s with
  | .ok _ t => .ok true t
  | .error .error t => .ok false t
  | .error j t => .error j t

end Redirect

end Docset.Shell
