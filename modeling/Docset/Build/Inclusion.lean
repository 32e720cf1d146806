import Docset.Error
import Docset.Files.Folders

/-!
# Including a folder in a docset

The built storybook is copied into the output folder, and text may be added to the
end of files of the copy. Files that are not there get nothing added.
-/
namespace Docset.Build

structure Inclusion where
  /-- The folder to copy. -/
  source : Path
  /-- The name of the copy in the output folder. -/
  name : String
  /-- Files of the copy, and what is added to their ends. -/
  additions : List (Path × String) := []
  deriving DecidableEq, Repr

/-- Lets the preview of the viewer have its whole width. -/
def layoutOverrides : String :=
  "\n<style>\n  .css-sqdry3, .css-sqdry3 + div \x7b\n    left: 0 !important;\n    " ++
    "width: 100% !important;\n  \x7d\n  .react-draggable \x7b\n    display: none !important;\n" ++
    "  \x7d\n</style>\n"

/-- The error of a failed copy; what could not be looked at is told of the source as a whole. -/
def copyError (source : Path) : CopyError → Error
  | .source path cause => .unresolved source (.walk path cause)
  | .target cause => .io cause

/-- Copies a tree and counts its files. -/
def copyTree (source target : Path) : FileAction Error Nat :=
  (Docset.copyTree source target).mapError (copyError source)

/-- Adds text to the end of a file. -/
def addToEnd (file : Path) (text : String) : FileAction Error Unit :=
  (FileAction.change (·.append file text.toUTF8)).mapError .io

/-- Copies a folder into an output folder, makes the additions, and names the copy. -/
def Inclusion.perform (i : Inclusion) (output : Path) : FileAction Error Path := do
  let copy := output.join ⟨i.name⟩
  let _ ← copyTree i.source copy
  i.additions.forM fun (file, text) => do
    let path := copy.join file
    if ← FileAction.inspect fun fs => .ok (fs.isFile path) then addToEnd path text
  return copy

end Docset.Build
