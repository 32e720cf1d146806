import Docset.Files.Path

/-!
# A file system

The tree of a file system is a list of places with what stands there: a file, a
folder, a symbolic link or the null device. A place is named from the inside out,
so the folder around it is the tail of its name and the root is the empty name.
Paths are looked up from the current folder; links on the way are followed, at most
forty of them.

Every file can be read and written and every folder listed and changed; the only permission
there is says whether a file may be run. What stands at a place stands there alone: a file
has no second name, so writing to one changes no other.

The limits are the usual ones: 255 bytes for a name, 4095 for a path. The second
one is a limit on what an operation is handed, so a place may well be too deep to
be named in full.
-/
namespace Docset

/-- Names from the innermost one outwards. -/
abbrev Location := List String

/-- Bytes are compared one by one. -/
instance (priority := high) decidableEqBytes : DecidableEq ByteArray :=
  ByteArray.instDecidableEq

inductive Entry where
  /-- A file, and whether it may be run. -/
  | file (bytes : ByteArray) (runnable : Bool)
  | folder
  | link (target : String)
  /-- The null device: what is written to it is lost, and it has nothing to read. -/
  | void
  deriving DecidableEq

structure FileSystem where
  entries : List (Location × Entry)
  /-- The current folder. -/
  here : Location

/-- Why an operation on files failed. -/
inductive IoError where
  | notFound
  | permissionDenied
  | alreadyExists
  | notAFolder
  | isAFolder
  | nameTooLong
  | tooManyLinks
  | notEmpty
  | invalid
  /-- A file that is to be run is neither a program nor a script. -/
  | notAProgram
  /-- A channel that is to be used is closed. -/
  | badChannel
  /-- A path contains the character that ends system strings. -/
  | nulInPath
  /-- A file is not text in UTF-8. -/
  | notText
  /-- No folder at all exists along a path. -/
  | noStart
  deriving DecidableEq, Repr

namespace IoError

/-- The system's words for an error. -/
def reason : IoError → String
  | notFound => "No such file or directory"
  | permissionDenied => "Permission denied"
  | alreadyExists => "File exists"
  | notAFolder => "Not a directory"
  | isAFolder => "Is a directory"
  | nameTooLong => "File name too long"
  | tooManyLinks => "Too many levels of symbolic links"
  | notEmpty => "Directory not empty"
  | invalid => "Invalid argument"
  | notAProgram => "Exec format error"
  | badChannel => "Bad file descriptor"
  | nulInPath => "file name contained an unexpected NUL byte"
  | notText => "stream did not contain valid UTF-8"
  | noStart => "failed to create whole tree"

/-- The number that the system gives an error. -/
def number? : IoError → Option Nat
  | notFound => some 2
  | permissionDenied => some 13
  | alreadyExists => some 17
  | notAFolder => some 20
  | isAFolder => some 21
  | nameTooLong => some 36
  | notEmpty => some 39
  | tooManyLinks => some 40
  | invalid => some 22
  | notAProgram => some 8
  | badChannel => some 9
  | _ => none

def message (e : IoError) : String :=
  match e.number? with
  | some n => e.reason ++ " (os error " ++ toString n ++ ")"
  | none => e.reason

end IoError

/-- The absolute path of a place. -/
def Location.path (l : Location) : Path := ⟨"/" ++ "/".intercalate l.reverse⟩

namespace FileSystem

/-- What stands at a place. -/
def get? (fs : FileSystem) : Location → Option Entry
  | [] => some .folder
  | l => (fs.entries.find? (·.1 = l)).map (·.2)

/-- Puts something at a place, instead of what is there. -/
def put (fs : FileSystem) (l : Location) (e : Entry) : FileSystem :=
  { fs with
    entries :=
      if fs.entries.any (·.1 = l) then fs.entries.map fun p => if p.1 = l then (l, e) else p
      else fs.entries ++ [(l, e)] }

theorem find?_map_put (l k : Location) (e : Entry) (entries : List (Location × Entry)) :
    (entries.map fun p => if p.1 = l then (l, e) else p).find? (·.1 = k) =
      if l = k then (entries.find? (·.1 = k)).map fun _ => (l, e) else entries.find? (·.1 = k) := by
  induction entries with
  | nil => simp
  | cons p rest ih =>
      rw [List.map_cons, List.find?_cons, List.find?_cons, ih]
      by_cases hp : p.1 = l <;> by_cases hk : l = k
      · simp [hp, hk]
      · simp [hp, hk]
      · have : ¬ p.1 = k := fun h => hp (h.trans hk.symm)
        simp [hk, this]
      · simp [hp, hk]

/-- Only the place that is written to changes. -/
theorem get?_put (fs : FileSystem) {l : Location} (hl : l ≠ []) (e : Entry) (k : Location) :
    (fs.put l e).get? k = if l = k then some e else fs.get? k := by
  cases k with
  | nil => simp [get?, hl]
  | cons name around =>
      simp only [get?, put]
      split
      · rename_i hany
        rw [find?_map_put]
        split
        · rename_i heq
          subst heq
          obtain ⟨p, hp, hpl⟩ := List.any_eq_true.1 hany
          have : (fs.entries.find? (·.1 = name :: around)).isSome :=
            List.find?_isSome.2 ⟨p, hp, hpl⟩
          obtain ⟨q, hq⟩ := Option.isSome_iff_exists.1 this
          simp [hq]
        · rfl
      · rename_i hany
        rw [List.find?_append]
        split
        · rename_i heq
          subst heq
          have : fs.entries.find? (·.1 = name :: around) = none := by
            rw [List.find?_eq_none]
            intro p hp hpl
            exact hany (List.any_eq_true.2 ⟨p, hp, hpl⟩)
          simp [this]
        · rename_i hne
          simp [hne]

/-- Removes a place and everything below it. -/
def erase (fs : FileSystem) (l : Location) : FileSystem :=
  { fs with entries := fs.entries.filter fun p => !l.isSuffixOf p.1 }

/-- The names in a folder and what they stand for. -/
def children (fs : FileSystem) (l : Location) : List (String × Entry) :=
  fs.entries.filterMap fun p =>
    match p.1 with
    | name :: around => if around = l then some (name, p.2) else none
    | [] => none

/-- Where a path leads. -/
inductive Target where
  | found (place : Location) (entry : Entry)
  /-- Only the last name is missing. -/
  | missing (place : Location)

/-- What the last name of a path is looked up for. -/
inductive Purpose where
  /-- Whatever has that name, be it a link. -/
  | itself
  /-- What a link of that name leads to. -/
  | followed
  /-- A file to be created there; a slash after its name makes it a folder. -/
  | created
  deriving DecidableEq, Repr

/-- How far a path leads without a link being followed. -/
inductive Stretch (α : Type) where
  | whole (target : α)
  /-- A link was met, and the way goes on from a place along more pieces. -/
  | detour (place : Location) (pieces : List String)

/-- The way along the target of a link, seen from the folder that holds it. -/
def detour {α : Type} (place : Location) (target : String) (rest : List String) : Stretch α :=
  let link : Path := ⟨target⟩
  .detour (if link.isAbsolute then [] else place) (link.pieces ++ rest)

/-- Goes along the pieces of a path from a place, up to the first link on the way. -/
def stretch (fs : FileSystem) (purpose : Purpose) :
    Location → List String → Except IoError (Stretch Target)
  | place, [] =>
      match fs.get? place with
      | some e => .ok (.whole (.found place e))
      | none => .error .notFound
  | place, piece :: rest =>
      match fs.get? place with
      | none => .error .notFound
      | some .folder =>
          if piece = "" ∨ piece = "." then stretch fs purpose place rest
          else if piece = ".." then stretch fs purpose place.tail rest
          else if purpose = .created && !rest.isEmpty && rest.all (· = "") then .error .isAFolder
          else if 255 < piece.utf8ByteSize then .error .nameTooLong
          else
            match fs.get? (piece :: place) with
            | none =>
                if rest.all (· = "") then .ok (.whole (.missing (piece :: place)))
                else .error .notFound
            | some (.link target) =>
                if rest.isEmpty && purpose = .itself then
                  .ok (.whole (.found (piece :: place) (.link target)))
                else .ok (detour place target rest)
            | some _ => stretch fs purpose (piece :: place) rest
      | some _ => .error .notAFolder

/-- Goes a way stretch by stretch, past at most so many links. -/
def follow {α : Type} (go : Location → List String → Except IoError (Stretch α)) :
    (links : Nat) → Location → List String → Except IoError α
  | 0, place, pieces =>
      match go place pieces with
      | .ok (.whole target) => .ok target
      | .ok (.detour _ _) => .error .tooManyLinks
      | .error e => .error e
  | links + 1, place, pieces =>
      match go place pieces with
      | .ok (.whole target) => .ok target
      | .ok (.detour start more) => follow go links start more
      | .error e => .error e

/-- Where the way along a path starts. -/
def start (fs : FileSystem) (p : Path) : Location := if p.isAbsolute then [] else fs.here

/-- Refuses texts that name nothing. -/
def checkText (p : Path) : Except IoError Unit :=
  if p.text.toList.contains '\x00' then .error .nulInPath
  else if p.text = "" then .error .notFound
  else .ok ()

/-- Refuses paths that cannot be handed to an operation. -/
def checkPath (p : Path) : Except IoError Unit := do
  checkText p
  if 4095 < p.text.utf8ByteSize then .error .nameTooLong

/-- Where a path leads from the current folder. -/
def resolve (fs : FileSystem) (purpose : Purpose) (p : Path) : Except IoError Target := do
  checkPath p
  follow (fs.stretch purpose) 40 (fs.start p) p.pieces

def lookUp (fs : FileSystem) (purpose : Purpose) (p : Path) : Except IoError (Location × Entry) :=
  match fs.resolve purpose p with
  | .ok (.found place entry) => .ok (place, entry)
  | .ok (.missing _) => .error .notFound
  | .error e => .error e

/-- What a path stands for, links followed. -/
def stat (fs : FileSystem) (p : Path) : Except IoError (Location × Entry) := fs.lookUp .followed p

/-- What a path stands for, a link at its end being shown itself. -/
def lstat (fs : FileSystem) (p : Path) : Except IoError (Location × Entry) := fs.lookUp .itself p

def present (fs : FileSystem) (p : Path) : Bool := (fs.stat p).isOk

def isFile (fs : FileSystem) (p : Path) : Bool :=
  match fs.stat p with
  | .ok (_, .file _ _) => true
  | _ => false

def isFolder (fs : FileSystem) (p : Path) : Bool :=
  match fs.stat p with
  | .ok (_, .folder) => true
  | _ => false

/-- Whether what follows a name says that it is a folder: nothing that leads on from it, or a step
back out of it. -/
def demandsFolder (rest : List String) : Bool :=
  match rest.dropWhile fun piece => piece = "" ∨ piece = "." with
  | [] => !rest.isEmpty
  | piece :: _ => piece = ".."

/-- Goes along the pieces of a path, up to the first link. Every name on the way is looked up by
its absolute path, so the limit on paths holds for each of those. -/
def canonicalStretch (fs : FileSystem) :
    Location → List String → Except IoError (Stretch Location)
  | place, [] => .ok (.whole place)
  | place, piece :: rest =>
      if piece = "" ∨ piece = "." then canonicalStretch fs place rest
      else if piece = ".." then canonicalStretch fs place.tail rest
      else do
        let inner : Location := piece :: place
        match ← fs.lstat inner.path with
        | (_, .link target) => return detour place target rest
        | _ =>
            if demandsFolder rest then
              let _ ← fs.stat ⟨inner.path.text ++ "/"⟩
            canonicalStretch fs inner rest

/-- The absolute path that a path leads to, free of links. The path itself may have any length. -/
def canonicalize (fs : FileSystem) (p : Path) : Except IoError Path := do
  checkText p
  if (fs.get? (fs.start p)).isNone then .error .notFound
  else return (← follow fs.canonicalStretch 40 (fs.start p) p.pieces).path

def read (fs : FileSystem) (p : Path) : Except IoError ByteArray :=
  match fs.stat p with
  | .ok (_, .file bytes _) => .ok bytes
  | .ok (_, .void) => .ok .empty
  | .ok _ => .error .isAFolder
  | .error e => .error e

/-- The contents of a text file. -/
def readText (fs : FileSystem) (p : Path) : Except IoError String :=
  match fs.read p with
  | .ok bytes =>
      match String.fromUTF8? bytes with
      | some text => .ok text
      | none => .error .notText
  | .error e => .error e

/-- Puts contents into a file at a place, which stays runnable if it is. -/
def fill (fs : FileSystem) (place : Location) (bytes : ByteArray) : FileSystem :=
  match fs.get? place with
  | some (.file _ runnable) => fs.put place (.file bytes runnable)
  | some .void => fs
  | _ => fs.put place (.file bytes false)

/-- The place of a file that is written to, created if it is missing. -/
def create (fs : FileSystem) (p : Path) : Except IoError (Location × FileSystem) :=
  match fs.resolve .created p with
  | .ok (.found _ .folder) => .error .isAFolder
  | .ok (.found place _) => .ok (place, fs)
  | .ok (.missing place) => .ok (place, fs.fill place .empty)
  | .error e => .error e

/-- Creates a file or replaces its contents. -/
def write (fs : FileSystem) (p : Path) (bytes : ByteArray) : Except IoError FileSystem :=
  (fs.create p).map fun (place, fs) => fs.fill place bytes

/-- Adds to the end of a file, which has to exist. -/
def append (fs : FileSystem) (p : Path) (bytes : ByteArray) : Except IoError FileSystem :=
  match fs.stat p with
  | .ok (place, .file old _) => .ok (fs.fill place (old ++ bytes))
  | .ok (_, .void) => .ok fs
  | .ok _ => .error .isAFolder
  | .error e => .error e

/-- Creates one folder. Slashes at the end of its path are idle, also where the name before them
stands for something that is no folder. -/
def makeFolder (fs : FileSystem) (p : Path) : Except IoError FileSystem := do
  checkPath p
  match ← fs.resolve .itself p.withoutEndSlashes with
  | .found _ _ => .error .alreadyExists
  | .missing place => return fs.put place .folder

/-- Creates a link. -/
def makeLink (fs : FileSystem) (p : Path) (target : String) : Except IoError FileSystem := do
  match ← fs.resolve .itself p with
  | .found _ _ => .error .alreadyExists
  | .missing place =>
      if p.text.toList.getLast? = some '/' then .error .notFound
      else return fs.put place (.link target)

/-- Says of a file whether it may be run. -/
def setRunnable (fs : FileSystem) (place : Location) (runnable : Bool) : FileSystem :=
  match fs.get? place with
  | some (.file bytes _) => fs.put place (.file bytes runnable)
  | _ => fs

/-- Whether what stands at a place may be run. -/
def isRunnable (fs : FileSystem) (place : Location) : Bool :=
  match fs.get? place with
  | some (.file _ runnable) => runnable
  | _ => false

/-- Copies a file: the source is read first, then the target is emptied and filled. A file copied
onto itself is left empty. -/
def copyFile (fs : FileSystem) (source target : Path) : Except IoError FileSystem := do
  let (place, _) ← fs.stat source
  let _ ← fs.read source
  let (copy, created) ← fs.create target
  let emptied := created.fill copy .empty
  let bytes ← emptied.read source
  return (emptied.fill copy bytes).setRunnable copy (fs.isRunnable place)

/-- Gives what stands at a place, and all below it, a new place. -/
def relocate (fs : FileSystem) (old new : Location) : FileSystem :=
  let cleared := fs.erase new
  { cleared with
    entries := cleared.entries.map fun (l, e) =>
      if old.isSuffixOf l then (l.take (l.length - old.length) ++ new, e) else (l, e) }

end FileSystem

/-- An operation on files. What it changed before an error stays changed. -/
abbrev FileAction (ε α : Type) := EStateM ε FileSystem α

namespace FileAction

variable {ε α : Type}

/-- Looks at the file system. -/
def inspect (f : FileSystem → Except ε α) : FileAction ε α := fun fs =>
  match f fs with
  | .ok a => .ok a fs
  | .error e => .error e fs

/-- Changes the file system. -/
def change (f : FileSystem → Except ε FileSystem) : FileAction ε Unit := fun fs =>
  match f fs with
  | .ok changed => .ok () changed
  | .error e => .error e fs

/-- Renames the errors of an operation. -/
def mapError {δ : Type} (f : ε → δ) (act : FileAction ε α) : FileAction δ α := fun fs =>
  match act fs with
  | .ok a after => .ok a after
  | .error e after => .error (f e) after

/-- Turns an error into a result. -/
def attempt {δ : Type} (act : FileAction ε α) : FileAction δ (Except ε α) := fun fs =>
  match act fs with
  | .ok a after => .ok (.ok a) after
  | .error e after => .ok (.error e) after

end FileAction

end Docset
