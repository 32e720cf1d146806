import Docset.Files.System

/-!
# Folder trees

Creating a folder together with the folders around it, finding files below a
folder, and copying a whole tree. Links below the starting folder are never
followed. A copy reads each folder when it gets there, after its counterpart has
been made, so a tree that is copied into itself grows until its paths are too long.

A folder is opened by its path from the starting folder on. One whose path is too
long to be opened has its own entry, but nothing below it is seen.
-/
namespace Docset

/-- A path and the paths around it, from the inside out. -/
def Path.around : Nat → Path → List Path
  | 0, p => [p]
  | n + 1, p =>
      match p.parent? with
      | some q => p :: Path.around n q
      | none => [p]

/-- A path and the paths around it, from the inside out. -/
def Path.ancestors (p : Path) : List Path := Path.around p.text.length p

/-- Creates the first of the given folders; the others are the folders around it. -/
def makeAll : List Path → FileAction IoError Unit
  | [] => throw .noStart
  | p :: around => fun fs =>
      if p.text = "" then .ok () fs
      else
        match fs.makeFolder p with
        | .ok made => .ok () made
        | .error .notFound =>
            match makeAll around fs with
            | .error e after => .error e after
            | .ok _ after =>
                match after.makeFolder p with
                | .ok made => .ok () made
                | .error e => if after.isFolder p then .ok () after else .error e after
        | .error e => if fs.isFolder p then .ok () fs else .error e fs

/-- Creates a folder and the folders around it, as far as they are missing. -/
def makeFolders (p : Path) : FileAction IoError Unit := makeAll p.ancestors

/-- What a search for files looks for. -/
structure FileFilter where
  /-- Endings of file names, any of them; all files if empty. -/
  suffixes : List String := []
  /-- Names of files and folders to leave out. -/
  exclude : List String := []
  maxSize : Option UInt64 := none
  includeHidden : Bool := false
  deriving DecidableEq, Repr

/-- Folders of dependencies, caches and generated files. -/
def generatedNames : List String :=
  ["node_modules", "dist", "build", "coverage", "storybook-static", ".git", ".next", ".turbo",
    ".cache"]

namespace FileFilter
open FileSystem

/-- Whether a file or folder below the starting one is looked at. -/
def admits (f : FileFilter) (name : String) : Bool :=
  (f.includeHidden || name.toList.head? ≠ some '.') && !generatedNames.contains name &&
    !f.exclude.contains name

def keepsName (f : FileFilter) (name : String) : Bool :=
  f.suffixes.isEmpty || f.suffixes.any fun s => s.toList.isSuffixOf name.toList

def keepsSize (f : FileFilter) (size : Nat) : Bool :=
  match f.maxSize with
  | some limit => size ≤ limit.toNat
  | none => true

/-- Whether a file is one of those looked for. The size of a file counts only if its path is short
enough to ask for it. -/
def keeps (f : FileFilter) (path : Path) (name : String) : Entry → Bool
  | .file bytes _ =>
      f.keepsName name && ((checkPath path).toOption.isNone || f.keepsSize bytes.size)
  | _ => false

end FileFilter

/-- The files looked for in the folder at `place`, which `path` names, and below it. At most
`depth` folders are entered one inside the other. -/
def FileSystem.filesBelow (fs : FileSystem) (f : FileFilter) : Nat → Path → Location → List Path
  | 0, _, _ => []
  | depth + 1, path, place =>
      if (checkPath path).toOption.isNone then []
      else
        (fs.children place).flatMap fun (name, entry) =>
          if f.admits name then
            let inner := path.join ⟨name⟩
            match entry with
            | .folder => filesBelow fs f depth inner (name :: place)
            | _ => if f.keeps inner name entry then [inner] else []
          else []

/-- The files looked for under a path, sorted. The path itself is not tested for being hidden or
left out; it may lead to the starting folder by way of links. -/
def FileSystem.findFiles (fs : FileSystem) (f : FileFilter) (root : Path) : List Path :=
  let found :=
    match fs.lstat root with
    | .ok (place, .folder) => fs.filesBelow f (fs.entries.length + 1) root place
    | .ok (_, .link _) =>
        match fs.stat root with
        | .ok (place, .folder) => fs.filesBelow f (fs.entries.length + 1) root place
        | _ => []
    | .ok (_, entry) => if f.keeps root (root.fileName?.getD root.text) entry then [root] else []
    | .error _ => []
  found.mergeSort Path.le

/-- Why a tree was not copied. -/
inductive CopyError where
  /-- Something in the source could not be looked at. -/
  | source (path : Path) (cause : IoError)
  | target (cause : IoError)
  deriving DecidableEq, Repr

/-- Copies what the folder at `place` holds, file by file, and counts the files. -/
def copyBelow : Nat → Path → Location → Path → FileAction CopyError Nat
  | 0, path, _, _ => throw (.source path .nameTooLong)
  | depth + 1, path, place, target => do
      FileAction.inspect fun _ => (FileSystem.checkPath path).mapError (.source path)
      let children ← FileAction.inspect fun fs => .ok (fs.children place)
      children.foldlM (fun count (name, entry) => do
        let inner := path.join ⟨name⟩
        let counterpart := target.join ⟨name⟩
        match entry with
        | .folder =>
            (makeFolders counterpart).mapError .target
            return count + (← copyBelow depth inner (name :: place) counterpart)
        | .file _ _ =>
            (FileAction.change (·.copyFile inner counterpart)).mapError .target
            return count + 1
        | _ => return count) 0

/-- Copies a tree and counts its files. Links are left out. A source that is itself a link to a
folder has its contents copied, but no folder is made for them. -/
def copyTree (source target : Path) : FileAction CopyError Nat := do
  let start := target.join ⟨""⟩
  match ← FileAction.inspect fun fs => (fs.lstat source).mapError (CopyError.source source) with
  | (place, .folder) =>
      (makeFolders start).mapError .target
      copyBelow 4096 source place target
  | (_, .link _) =>
      match ← FileAction.inspect fun fs => (fs.stat source).mapError (CopyError.source source) with
      | (place, .folder) => copyBelow 4096 source place target
      | _ => return 0
  | (_, .file _ _) =>
      (FileAction.change (·.copyFile source start)).mapError .target
      return 1
  | (_, .void) => return 0

end Docset
