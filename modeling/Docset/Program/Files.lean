import Docset.Program.Quoting

/-!
# Programs that change files

Creating, removing, copying, moving and linking files and folders, and saying which
files may be run. Each operand is dealt with on its own: one that gives trouble is
complained about, makes the status 1, and does not keep the others from their turn.
-/
namespace Docset.Program

/-- Goes on with changed files, or complains. -/
def Outcome.orComplain (o : Outcome) (r : Except String FileSystem) : Outcome :=
  match r with
  | .ok files => { o with files }
  | .error message => o.fail 1 message

/-- The last piece of a path, slashes at its end apart. -/
def baseName (s : String) : String :=
  let p := Path.withoutEndSlashes ⟨s⟩
  if p.text.toList.all (· = '/') then if s = "" then "" else "/" else p.pieces.getLast?.getD s

/-- A name in a folder. -/
def inside (folder name : String) : String := (Path.join ⟨folder⟩ ⟨name⟩).text

/-! ## Removing -/

def removeOne (name : String) (o : Options) (operand : String) (fs : FileSystem) :
    Except String FileSystem :=
  let refused (reason : String) : String :=
    name ++ ": cannot remove " ++ inQuotes operand ++ ": " ++ reason
  let deep := o.has 'r' || o.has 'R'
  let behindLink : Bool :=
    match operand.toList.getLast?, fs.lstat (Path.withoutEndSlashes ⟨operand⟩) with
    | some '/', .ok (_, .link _) => true
    | _, _ => false
  if behindLink && fs.isFolder ⟨operand⟩ then
    .error (refused (if deep then IoError.notAFolder else IoError.isAFolder).reason)
  else if deep && (baseName operand = "." || baseName operand = "..") then
    .error (name ++ ": refusing to remove '.' or '..' directory: skipping " ++ inQuotes operand)
  else
    match fs.lstat ⟨operand⟩ with
    | .ok (place, .folder) =>
        if deep && place.isEmpty then
          let called := if operand = "/" then "" else " (same as '/')"
          .error (name ++ ": it is dangerous to operate recursively on " ++ inQuotes operand ++
            called ++ "\n" ++ name ++ ": use --no-preserve-root to override this failsafe")
        else if deep then .ok (fs.erase place)
        else if o.has 'd' then
          if (fs.children place).isEmpty then .ok (fs.erase place)
          else .error (refused IoError.notEmpty.reason)
        else .error (refused IoError.isAFolder.reason)
    | .ok (place, _) => .ok (fs.erase place)
    | .error e =>
        if o.has 'f' && (e = .notFound || e = .notAFolder) then .ok fs
        else .error (refused e.reason)

def remove : Program := withOptions "rRfivdI" "" fun c o =>
  if o.operands.isEmpty then if o.has 'f' then c.begin else c.misuse "missing operand"
  else each c.begin o.operands fun out operand =>
    out.orComplain (removeOne c.name o operand out.files)

/-- Removes an empty folder. -/
def removeEmpty (name operand : String) (fs : FileSystem) : Except String FileSystem :=
  let refused (e : IoError) : String :=
    name ++ ": failed to remove " ++ inQuotes operand ++ ": " ++ e.reason
  match fs.lstat ⟨operand⟩ with
  | .ok (place, .folder) =>
      if baseName operand = "." then .error (refused .invalid)
      else if (fs.children place).isEmpty then .ok (fs.erase place)
      else .error (refused .notEmpty)
  | .ok _ => .error (refused .notAFolder)
  | .error e => .error (refused e)

/-- A path and the folders around it that it names, from the inside out. -/
def namedFolders (operand : String) : List String :=
  (Path.ancestors ⟨operand⟩).filterMap fun p => if p.text = "" then none else some p.text

def removeFolder : Program := withOptions "pv" "" fun c o =>
  if o.operands.isEmpty then c.misuse "missing operand"
  else each c.begin o.operands fun out operand =>
    if o.has 'p' then
      match (namedFolders operand).foldlM (fun fs f => removeEmpty c.name f fs) out.files with
      | .ok files => { out with files }
      | .error message => out.fail 1 message
    else out.orComplain (removeEmpty c.name operand out.files)

/-! ## Creating -/

/-- The first folder along a path that cannot be entered because it is none. -/
def blocker? (fs : FileSystem) (p : Path) : Option Path :=
  p.ancestors.reverse.find? fun q => q.text ≠ "" && fs.present q && !fs.isFolder q

def makeFolder : Program := withOptions "pv" "m" fun c o =>
  if o.operands.isEmpty then c.misuse "missing operand"
  else each c.begin o.operands fun out operand =>
    let refused (text : String) (e : IoError) : String :=
      c.name ++ ": cannot create directory " ++ quote text ++ ": " ++ e.reason
    out.orComplain <|
      if o.has 'p' then
        match blocker? out.files ⟨operand⟩, makeFolders ⟨operand⟩ out.files with
        | _, .ok _ after => if operand = "" then .error (refused "" .notFound) else .ok after
        | some q, .error _ _ =>
            .error (refused q.text (if q.text = operand then .alreadyExists else .notAFolder))
        | none, .error e _ => .error (refused operand e)
      else (out.files.makeFolder ⟨operand⟩).mapError (refused operand)

def touch : Program := withOptions "acmhf" "drt" fun c o =>
  if o.operands.isEmpty then c.misuse "missing file operand"
  else each c.begin o.operands fun out operand =>
    if operand = "-" || out.files.present ⟨operand⟩ || o.has 'c' then out
    else out.orComplain <| ((out.files.create ⟨operand⟩).map (·.2)).mapError fun e =>
      if operand.toList.getLast? = some '/' then
        c.name ++ ": setting times of " ++ inQuotes operand ++ ": " ++
          (match out.files.stat ⟨operand⟩ with
            | .error e => e
            | .ok _ => e).reason
      else c.name ++ ": cannot touch " ++ inQuotes operand ++ ": " ++ e.reason

/-! ## Copying -/

/-- Complaints of a copy and what was copied all the same. -/
structure Copying where
  files : FileSystem
  complaints : List String := []

def Copying.complain (k : Copying) (message : String) : Copying :=
  { k with complaints := k.complaints ++ [message] }

/-- Copies a file over or to a path. -/
def copyOver (source target : String) (k : Copying) : Copying :=
  let fs := k.files
  let refused (e : IoError) : Copying :=
    k.complain ("cannot create regular file " ++ inQuotes target ++ ": " ++ e.reason)
  match fs.stat ⟨source⟩, fs.read ⟨source⟩ with
  | .ok (place, _), .ok bytes =>
      match fs.lstat ⟨target⟩, fs.stat ⟨target⟩ with
      | .ok (_, .link _), .error .notFound =>
          k.complain ("not writing through dangling symlink " ++ inQuotes target)
      | _, .ok (_, .folder) =>
          k.complain ("cannot overwrite directory " ++ inQuotes target ++ " with non-directory")
      | _, .ok (there, _) =>
          if there = place then
            k.complain (inQuotes source ++ " and " ++ inQuotes target ++ " are the same file")
          else { k with files := fs.fill there bytes }
      | _, .error .notFound =>
          if target.toList.getLast? = some '/' then refused .notAFolder
          else
            match fs.create ⟨target⟩ with
            | .ok (there, created) =>
                { k with
                  files := (created.fill there bytes).setRunnable there (fs.isRunnable place) }
            | .error e => refused e
      | _, .error e => refused e
  | .error e, _ => k.complain ("cannot stat " ++ inQuotes source ++ ": " ++ e.reason)
  | _, .error e => k.complain ("cannot open " ++ inQuotes source ++ " for reading: " ++ e.reason)

/-- Copies a link itself. -/
def copyLink (source target link : String) (k : Copying) : Copying :=
  match k.files.lstat ⟨target⟩ with
  | .ok (_, .folder) =>
      k.complain ("cannot overwrite directory " ++ inQuotes target ++ " with non-directory " ++
        inQuotes source)
  | .ok (there, _) => { k with files := k.files.put there (.link link) }
  | .error _ =>
      match k.files.makeLink ⟨target⟩ link with
      | .ok files => { k with files }
      | .error e =>
          k.complain ("cannot create symbolic link " ++ inQuotes target ++ ": " ++ e.reason)

/-- Copies a tree, at most so many folders deep. `own` is the folder that the copy made first; it
is not copied into itself, which is said with the words `into`. -/
def copyDeep (follow : Bool) (own : Option Location) (into : String) :
    Nat → String → String → Copying → Copying
  | 0, _, _, k => k
  | depth + 1, source, target, k =>
      match if follow then k.files.stat ⟨source⟩ else k.files.lstat ⟨source⟩ with
      | .error e => k.complain ("cannot stat " ++ inQuotes source ++ ": " ++ e.reason)
      | .ok (_, .link link) => copyLink source target link k
      | .ok (place, .folder) =>
          if own = some place then k.complain into
          else
            let made : Except String FileSystem :=
              match k.files.stat ⟨target⟩ with
              | .ok (_, .folder) => .ok k.files
              | .ok _ => .error ("cannot overwrite non-directory " ++ inQuotes target ++
                  " with directory " ++ inQuotes source)
              | .error _ =>
                  (k.files.makeFolder ⟨target⟩).mapError fun e =>
                    "cannot create directory " ++ inQuotes target ++ ": " ++ e.reason
            match made with
            | .error message => k.complain message
            | .ok files =>
                let own := own.or ((files.stat ⟨target⟩).toOption.map (·.1))
                (files.children place).foldl (fun k (name, _) =>
                  copyDeep false own into depth (inside source name) (inside target name) k)
                  { k with files }
      | .ok _ => copyOver source target k

/-- Where something goes that is copied or moved to a target: into it, if it is a folder. -/
def destination (fs : FileSystem) (source target : String) : String :=
  if fs.isFolder ⟨target⟩ then inside target (baseName source) else target

def copyOne (o : Options) (target : String) (out : Outcome) (name source : String) : Outcome :=
  let recursive := o.has 'r' || o.has 'R' || o.has 'a'
  let fs := out.files
  let place := if o.has 'T' then target else destination fs source target
  let k : Copying := { files := fs }
  let done : Copying :=
    if fs.isFolder ⟨source⟩ && !recursive then
      k.complain ("-r not specified; omitting directory " ++ inQuotes source)
    else if o.has 'n' && fs.present ⟨place⟩ then k
    else if recursive then
      let into :=
        "cannot copy a directory, " ++ inQuotes source ++ ", into itself, " ++ inQuotes place
      copyDeep (o.has 'L') none into 4096 source place k
    else copyOver source place k
  done.complaints.foldl (fun out m => out.fail 1 (name ++ ": " ++ m))
    { out with files := done.files }

/-- Runs a program that has sources and, as its last operand, a target. -/
def toTarget (c : Call) (o : Options) (run : String → Outcome → String → Outcome) : Outcome :=
  match o.value? 't', o.operands.reverse with
  | some target, sources => each c.begin sources.reverse (run target)
  | none, [] => c.misuse "missing file operand"
  | none, [single] => c.misuse ("missing destination file operand after " ++ inQuotes single)
  | none, target :: sources =>
      if 1 < sources.length && !c.files.isFolder ⟨target⟩ then
        let reason :=
          match c.files.stat ⟨target⟩ with
          | .error e => e.reason
          | .ok _ => IoError.notAFolder.reason
        c.refuse ("target " ++ inQuotes target ++ ": " ++ reason)
      else each c.begin sources.reverse (run target)

def copy : Program := withOptions "rRafpnvLPdTu" "t" fun c o =>
  toTarget c o fun target out source => copyOne o target out c.name source

/-! ## Moving -/

def moveOne (name target : String) (noClobber : Bool) (source : String) (fs : FileSystem) :
    Except String FileSystem :=
  let place := destination fs source target
  let refused (e : IoError) : String :=
    name ++ ": cannot move " ++ inQuotes source ++ " to " ++ inQuotes place ++ ": " ++ e.reason
  let intoItself : String :=
    name ++ ": cannot move " ++ inQuotes source ++ " to a subdirectory of itself, " ++
      inQuotes place
  match fs.lstat ⟨source⟩ with
  | .error e => .error (name ++ ": cannot stat " ++ inQuotes source ++ ": " ++ e.reason)
  | .ok (old, entry) =>
      match fs.resolve .itself (Path.withoutEndSlashes ⟨place⟩) with
      | .error e =>
          .error (if e = .notFound then refused e
            else name ++ ": cannot stat " ++ inQuotes place ++ ": " ++ e.reason)
      | .ok (.missing new) =>
          if old.isSuffixOf new then
            .error intoItself
          else if entry ≠ .folder && place.toList.getLast? = some '/' then
            .error (refused .notAFolder)
          else .ok (fs.relocate old new)
      | .ok (.found new there) =>
          if noClobber then .ok fs
          else if old = new then
            .error (name ++ ": " ++ inQuotes source ++ " and " ++ inQuotes place ++
              " are the same file")
          else if entry = .folder && there ≠ .folder then
            .error (name ++ ": cannot overwrite non-directory " ++ inQuotes place ++
              " with directory " ++ inQuotes source)
          else if entry ≠ .folder && there = .folder then
            .error (name ++ ": cannot overwrite directory " ++ inQuotes place ++
              " with non-directory")
          else if old.isSuffixOf new then
            .error intoItself
          else if there = .folder && !(fs.children new).isEmpty then
            .error (name ++ ": cannot overwrite " ++ inQuotes place ++ ": " ++
              IoError.notEmpty.reason)
          else .ok (fs.relocate old new)

def move : Program := withOptions "finvTu" "t" fun c o =>
  toTarget c o fun target out source =>
    out.orComplain (moveOne c.name target (o.has 'n') source out.files)

/-! ## Linking -/

def linkOne (c : Call) (o : Options) (target name : String) (fs : FileSystem) :
    Except String FileSystem :=
  let symbolic := o.has 's'
  let kind := if symbolic then "symbolic link " else "hard link "
  let isFolder :=
    if o.has 'n' || o.has 'T' then
      match fs.lstat ⟨name⟩ with
      | .ok (_, .folder) => !o.has 'T'
      | _ => false
    else fs.isFolder ⟨name⟩
  let place := if isFolder then inside name (baseName target) else name
  let refused (e : IoError) : String :=
    c.name ++ ": failed to create " ++ kind ++ inQuotes place ++ ": " ++ e.reason
  let cleared : FileSystem :=
    match o.has 'f', fs.lstat ⟨place⟩ with
    | true, .ok (there, entry) => if entry = .folder then fs else fs.erase there
    | _, _ => fs
  if symbolic then (cleared.makeLink ⟨place⟩ target).mapError refused
  else
    match fs.lstat ⟨target⟩ with
    | .error e => .error (c.name ++ ": failed to access " ++ inQuotes target ++ ": " ++ e.reason)
    | .ok (_, .folder) =>
        .error (c.name ++ ": " ++ shownName target ++ ": hard link not allowed for directory")
    | .ok (_, entry) =>
        match cleared.resolve .itself ⟨place⟩ with
        | .ok (.missing there) => .ok (cleared.put there entry)
        | .ok (.found _ _) => .error (refused .alreadyExists)
        | .error e => .error (refused e)

def link : Program := withOptions "sfnTvr" "t" fun c o =>
  match o.operands.reverse with
  | [] => c.misuse "missing file operand"
  | [target] => c.begin.orComplain (linkOne c o target "." c.files)
  | [name, target] => c.begin.orComplain (linkOne c o target name c.files)
  | _ =>
      toTarget c o fun folder out target => out.orComplain (linkOne c o target folder out.files)

/-! ## Permission to run -/

/-- What a mode says about running a file; `none` if it is no mode. -/
def runnableAfter? (mode : String) (before : Bool) : Option Bool :=
  let clause (before : Bool) (cs : List Char) : Option Bool :=
    let who := cs.takeWhile fun c => "ugoa".toList.contains c
    match cs.drop who.length with
    | op :: what =>
        if what.all fun c => "rwxXstugo".toList.contains c then
          let x := what.contains 'x'
          match op with
          | '+' => some (before || x)
          | '-' => some (before && !x)
          | '=' => some x
          | _ => none
        else none
    | [] => none
  if mode ≠ "" && mode.toList.all fun c => '0' ≤ c && c ≤ '7' then
    let bits := mode.toList.foldl (fun n c => n * 8 + (c.toNat - '0'.toNat)) 0
    some (bits &&& 0o111 ≠ 0)
  else (Text.split (· = ',') mode.toList).foldlM clause before

/-- Applies a mode to a place and, if asked for, to everything below it. -/
def applyMode (mode : String) (deep : Bool) (place : Location) (fs : FileSystem) : FileSystem :=
  { fs with
    entries := fs.entries.map fun (l, e) =>
      if l = place || (deep && place.isSuffixOf l) then
        match e with
        | .file bytes runnable => (l, .file bytes ((runnableAfter? mode runnable).getD runnable))
        | e => (l, e)
      else (l, e) }

def changeMode : Program := fun c =>
  let isOption (s : String) : Bool :=
    match s.toList with
    | '-' :: letter :: letters => (letter :: letters).all fun l => "Rvcf".toList.contains l
    | _ => false
  let deep := c.args.any fun s => isOption s && s.toList.contains 'R'
  match c.args.filter fun s => !isOption s && s ≠ "--" with
  | [] => c.misuse "missing operand"
  | [mode] => c.misuse ("missing operand after " ++ quote mode)
  | mode :: operands =>
      if (runnableAfter? mode false).isNone then c.misuse ("invalid mode: " ++ quote mode)
      else each c.begin operands fun out operand =>
        match out.files.stat ⟨operand⟩, out.files.lstat ⟨operand⟩ with
        | .ok (place, _), _ => { out with files := applyMode mode deep place out.files }
        | .error .notFound, .ok _ =>
            out.fail 1 (c.name ++ ": cannot operate on dangling symlink " ++ inQuotes operand)
        | .error e, _ =>
            out.fail 1 (c.name ++ ": cannot access " ++ inQuotes operand ++ ": " ++ e.reason)

end Docset.Program
