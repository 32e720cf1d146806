import Docset.Program.Files

/-!
# Programs about names

Taking names apart, following links, and listing the names in folders.
-/
namespace Docset.Program

/-- A name without an ending, unless that is all of it. -/
def dropEnding (ending name : String) : String :=
  if name ≠ ending && ending.toList.isSuffixOf name.toList then
    String.ofList (name.toList.take (name.length - ending.length))
  else name

def base : Program := withOptions "a" "s" fun c o =>
  match o.operands with
  | [] => c.misuse "missing operand"
  | [name, ending] =>
      if o.has 'a' then c.begin.say (baseName name ++ "\n" ++ baseName ending ++ "\n")
      else c.begin.say (dropEnding ending (baseName name) ++ "\n")
  | [name] => c.begin.say (dropEnding ((o.value? 's').getD "") (baseName name) ++ "\n")
  | names =>
      if o.has 'a' then each c.begin names fun out name => out.say (baseName name ++ "\n")
      else c.misuse ("extra operand " ++ quote (names.getD 2 ""))

/-- The path without its last piece. -/
def folderName (s : String) : String :=
  let slashless (cs : List Char) : List Char := cs.dropWhile (· = '/')
  let backward := slashless s.toList.reverse
  match slashless (backward.dropWhile (· ≠ '/')) with
  | [] => if s.toList.head? = some '/' then "/" else "."
  | kept => String.ofList kept.reverse

def folder : Program := withOptions "z" "" fun c o =>
  if o.operands.isEmpty then c.misuse "missing operand"
  else each c.begin o.operands fun out name => out.say (folderName name ++ "\n")

/-- The absolute path that a path leads to; its last piece may be missing. -/
def fullPath (fs : FileSystem) (s : String) : Except IoError String :=
  match fs.canonicalize ⟨s⟩ with
  | .ok p => .ok p.text
  | .error .notFound =>
      if s = "" then .error .notFound
      else (fs.canonicalize ⟨folderName s⟩).map fun p => inside p.text (baseName s)
  | .error e => .error e

def realPath : Program := withOptions "emsq" "" fun c o =>
  if o.operands.isEmpty then c.misuse "missing operand"
  else each c.begin o.operands fun out name =>
    match if o.has 'e' then (out.files.canonicalize ⟨name⟩).map (·.text)
      else fullPath out.files name with
    | .ok path => out.say (path ++ "\n")
    | .error e => out.fail 1 (c.name ++ ": " ++ name ++ ": " ++ e.reason)

def readLink : Program := withOptions "fnemsq" "" fun c o =>
  if o.operands.isEmpty then c.misuse "missing operand"
  else each c.begin o.operands fun out name =>
    let newline := if o.has 'n' then "" else "\n"
    if o.has 'f' || o.has 'e' || o.has 'm' then
      match fullPath out.files name with
      | .ok path => out.say (path ++ newline)
      | .error _ => { out with status := 1 }
    else
      match out.files.lstat ⟨name⟩ with
      | .ok (_, .link target) => out.say (target ++ newline)
      | _ => { out with status := 1 }

/-- Names in the order of their bytes. -/
def sortNames (names : List String) : List String := names.mergeSort (· ≤ ·)

/-- A name as it is listed. -/
def listed (fs : FileSystem) (o : Options) (path name : String) : String :=
  if (o.has 'p' || o.has 'F') && fs.isFolder ⟨path⟩ then name ++ "/\n" else name ++ "\n"

/-- The names in a folder that are listed. -/
def listedNames (fs : FileSystem) (o : Options) (path : String) : List String :=
  match fs.stat ⟨path⟩ with
  | .ok (place, .folder) =>
      let names := (fs.children place).map (·.1)
      let shown :=
        if o.has 'a' then "." :: ".." :: names
        else if o.has 'A' then names
        else names.filter fun name => name.toList.head? ≠ some '.'
      let sorted := sortNames shown
      if o.has 'r' then sorted.reverse else sorted
  | _ => []

/-- The list of a folder, and on demand of the folders in it, at most so many deep. -/
def listing (fs : FileSystem) (o : Options) (titled : Bool) : Nat → String → List String
  | 0, _ => []
  | depth + 1, path =>
      let names := listedNames fs o path
      let title := if titled || o.has 'R' then path ++ ":\n" else ""
      let inner :=
        if o.has 'R' then
          (names.filter fun name =>
            match fs.lstat ⟨inside path name⟩ with
            | .ok (_, .folder) => name ≠ "." && name ≠ ".."
            | _ => false).flatMap fun name => listing fs o titled depth (inside path name)
        else []
      (title ++ String.join (names.map fun name => listed fs o (inside path name) name)) :: inner

def list : Program := fun c =>
  match readOptions c "aA1dRlFprtShCisqLH".toList [] {} c.args with
  | .error out => { out with status := 2 }
  | .ok o =>
      let operands := if o.operands.isEmpty then ["."] else sortNames o.operands
      let found := operands.filter fun name => (c.files.lstat ⟨name⟩).toOption.isSome
      let complained := each c.begin operands fun out name =>
        match c.files.lstat ⟨name⟩ with
        | .error e => out.fail 2 (c.name ++ ": cannot access " ++ inQuotes name ++ ": " ++ e.reason)
        | .ok _ => out
      let folders := found.filter fun name => c.files.isFolder ⟨name⟩ && !o.has 'd'
      let others := found.filter fun name => !folders.contains name
      let lists := folders.flatMap (listing c.files o (1 < operands.length) 4096)
      let first := String.join (others.map fun name => listed c.files o name name)
      let blocks := (if others.isEmpty then [] else [first]) ++ lists
      complained.say ("\n".intercalate blocks)

end Docset.Program
