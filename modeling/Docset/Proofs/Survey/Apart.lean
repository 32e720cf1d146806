import Docset.Proofs.Files.Writing
import Docset.Proofs.Manifest.LastWins
import Docset.Survey.Run

/-!
# A survey keeps its modules apart

What a survey reports about a module depends on what that module reads as and on nothing
else. The relation below goes through the modules one by one and puts each of them with the
clean ones or with the failures, by what reading and scanning it alone gives. A survey
meets it, and so the report on two lists of modules is made of the reports on each of them;
a module that fails is one more failure and changes nothing else.

Reading is taken as any assignment of results to paths, so errors that the tree of files
here does not give rise to are covered as well.
-/
namespace Docset.Survey

variable {fs : FileSystem} {o : Scan.Options} {read : Path → Except IoError ByteArray} {p : Path}
  {ps qs : List Path}

def judge (o : Scan.Options) : Except IoError ByteArray → Except String (Nat × List Story.Group)
  | .error e => .error e.message
  | .ok bytes =>
      match String.fromUTF8? bytes with
      | none => .error IoError.notText.message
      | some text =>
          match Scan.scan o text with
          | .error e => .error e.message
          | .ok groups => .ok (text.utf8ByteSize, groups)

def scanRead (read : Path → Except IoError ByteArray) (o : Scan.Options) (paths : List Path) :
    Report :=
  paths.foldl (fun r p => r.add p (judge o (read p))) {}

theorem examine_eq_judge : examine fs o p = judge o (fs.read p) := by
  unfold examine judge FileSystem.readText
  cases fs.read p with
  | error e => rfl
  | ok bytes =>
      cases htext : String.fromUTF8? bytes with
      | none => simp only [htext]
      | some text => cases hscan : Scan.scan o text <;> simp only [htext, hscan]

theorem scanFiles_eq_scanRead (h : ∀ p ∈ ps, fs.read p = read p) :
    scanFiles fs o ps = scanRead read o ps := by
  unfold scanFiles scanRead
  refine List.foldl_ext _ _ _ fun r p hp => ?_
  rw [examine_eq_judge, h p hp]

/-! ## Module by module -/

/-- Each module of a list is either clean, with the groups of its text, or a failure, with the error
that reading or scanning it gave. The number is that of the bytes of the clean ones. -/
inductive Tally (read : Path → Except IoError ByteArray) (o : Scan.Options) :
    List Path → List ScannedFile → List Failure → Nat → Prop
  | nil : Tally read o [] [] [] 0
  | clean {p : Path} {ps : List Path} {files : List ScannedFile} {failures : List Failure}
      {size : Nat} {text : String} {groups : List Story.Group} :
      read p = .ok text.toUTF8 → Scan.scan o text = .ok groups →
      Tally read o ps files failures size →
      Tally read o (p :: ps) (⟨p, groups⟩ :: files) failures (text.utf8ByteSize + size)
  | unread {p : Path} {ps : List Path} {files : List ScannedFile} {failures : List Failure}
      {size : Nat} {e : IoError} :
      read p = .error e → Tally read o ps files failures size →
      Tally read o (p :: ps) files (⟨p, e.message⟩ :: failures) size
  | notText {p : Path} {ps : List Path} {files : List ScannedFile} {failures : List Failure}
      {size : Nat} {bytes : ByteArray} :
      read p = .ok bytes → (∀ text : String, bytes ≠ text.toUTF8) →
      Tally read o ps files failures size →
      Tally read o (p :: ps) files (⟨p, IoError.notText.message⟩ :: failures) size
  | malformed {p : Path} {ps : List Path} {files : List ScannedFile} {failures : List Failure}
      {size : Nat} {text : String} {e : Scan.Error} :
      read p = .ok text.toUTF8 → Scan.scan o text = .error e → Tally read o ps files failures size →
      Tally read o (p :: ps) files (⟨p, e.message⟩ :: failures) size

theorem Tally.cons {files : List ScannedFile} {failures : List Failure} {size : Nat}
    (h : Tally read o ps files failures size) (p : Path) :
    match judge o (read p) with
    | .ok (bytes, groups) => Tally read o (p :: ps) (⟨p, groups⟩ :: files) failures (bytes + size)
    | .error e => Tally read o (p :: ps) files (⟨p, e⟩ :: failures) size := by
  unfold judge
  cases hread : read p with
  | error e => exact .unread hread h
  | ok bytes =>
      cases htext : String.fromUTF8? bytes with
      | none =>
          simp only [htext]
          refine .notText hread ?_ h
          rintro text rfl
          rw [FileSystem.fromUTF8?_eq_some_iff.mpr rfl] at htext
          cases htext
      | some text =>
          have hbytes : read p = .ok text.toUTF8 := by
            rw [hread, FileSystem.fromUTF8?_eq_some_iff.mp htext]
          cases hscan : Scan.scan o text with
          | error e =>
              simp only [htext, hscan]
              exact .malformed hbytes hscan h
          | ok groups =>
              simp only [htext, hscan]
              exact .clean hbytes hscan h

/-- What modules read as settles the report on them. -/
theorem Tally.unique {files files' : List ScannedFile} {failures failures' : List Failure}
    {size size' : Nat} (h : Tally read o ps files failures size)
    (h' : Tally read o ps files' failures' size') :
    files = files' ∧ failures = failures' ∧ size = size' := by
  induction h generalizing files' failures' size' with
  | nil => cases h'; exact ⟨rfl, rfl, rfl⟩
  | clean hread hscan _ ih => cases h' <;> grind [String.toUTF8, String.toByteArray_inj]
  | unread hread _ ih => cases h' <;> grind
  | notText hread hnot _ ih => cases h' <;> grind
  | malformed hread hscan _ ih => cases h' <;> grind [String.toUTF8, String.toByteArray_inj]

/-! ## Reports on lists of modules -/

def Report.followedBy (r s : Report) : Report where
  files := r.files ++ s.files
  failures := r.failures ++ s.failures
  bytesScanned := r.bytesScanned + s.bytesScanned

theorem Report.groups_followedBy (r s : Report) :
    (r.followedBy s).groups = r.groups ++ s.groups := List.flatMap_append

theorem Report.add_eq_followedBy (r : Report) (p : Path)
    (found : Except String (Nat × List Story.Group)) :
    r.add p found = r.followedBy (({} : Report).add p found) := by
  cases found with
  | ok found => simp [Report.add, Report.followedBy]
  | error e => simp [Report.add, Report.followedBy]

theorem Report.followedBy_assoc (r s t : Report) :
    (r.followedBy s).followedBy t = r.followedBy (s.followedBy t) := by
  simp [Report.followedBy, UInt64.add_assoc]

theorem scanRead_append (ps qs : List Path) :
    scanRead read o (ps ++ qs) = (scanRead read o ps).followedBy (scanRead read o qs) := by
  have hfrom : ∀ r : Report, qs.foldl (fun r p => r.add p (judge o (read p))) r =
      r.followedBy (scanRead read o qs) := by
    unfold scanRead
    induction qs with
    | nil => simp [Report.followedBy]
    | cons q qs ih =>
        intro r
        rw [List.foldl_cons, List.foldl_cons, ih, ih (Report.add {} _ _), Report.add_eq_followedBy,
          Report.followedBy_assoc]
  rw [scanRead, List.foldl_append]
  exact hfrom _

theorem scanRead_cons (p : Path) (ps : List Path) :
    scanRead read o (p :: ps) =
      (({} : Report).add p (judge o (read p))).followedBy (scanRead read o ps) :=
  scanRead_append [p] ps

theorem tally_scanRead (read : Path → Except IoError ByteArray) (o : Scan.Options)
    (ps : List Path) :
    ∃ size, Tally read o ps (scanRead read o ps).files (scanRead read o ps).failures size ∧
      (scanRead read o ps).bytesScanned = UInt64.ofNat size := by
  induction ps with
  | nil => exact ⟨0, .nil, rfl⟩
  | cons p ps ih =>
      obtain ⟨size, htally, hbytes⟩ := ih
      have hcons := htally.cons p
      rw [scanRead_cons]
      cases hjudge : judge o (read p) with
      | ok found =>
          rw [hjudge] at hcons
          refine ⟨found.1 + size, hcons, ?_⟩
          simp [Report.add, Report.followedBy, hbytes]
      | error e =>
          rw [hjudge] at hcons
          refine ⟨size, hcons, ?_⟩
          simp [Report.add, Report.followedBy, hbytes]

theorem manifest_followedBy (r s : Report) :
    (r.followedBy s).manifest = r.manifest.overlay s.manifest := by
  unfold Report.manifest
  rw [Report.groups_followedBy, Manifest.ofGroups_eq, Manifest.ofGroups_eq, Manifest.ofGroups_eq,
    List.flatMap_append, Manifest.ofStories_append]

/-- A survey reports on each module by what it reads as, in order, and counts the bytes of the clean
ones. Modules that follow have their report and their manifest put after those of the modules
before, and a module that fails is one more failure. -/
theorem scanFiles_keeps_modules_apart (o : Scan.Options) (read : Path → Except IoError ByteArray) :
    (∀ fs ps, (∀ p ∈ ps, fs.read p = read p) → scanFiles fs o ps = scanRead read o ps) ∧
    (∀ ps, ∃ size, Tally read o ps (scanRead read o ps).files (scanRead read o ps).failures size ∧
      (size < UInt64.size → (scanRead read o ps).bytesScanned.toNat = size)) ∧
    (∀ ps qs, scanRead read o (ps ++ qs) = (scanRead read o ps).followedBy (scanRead read o qs) ∧
      (scanRead read o (ps ++ qs)).manifest =
        (scanRead read o ps).manifest.overlay (scanRead read o qs).manifest) ∧
    ∀ ps p qs e, judge o (read p) = .error e →
      scanRead read o (ps ++ p :: qs) =
        { scanRead read o (ps ++ qs) with
          failures :=
            (scanRead read o ps).failures ++ ⟨p, e⟩ :: (scanRead read o qs).failures } := by
  refine ⟨fun fs ps => scanFiles_eq_scanRead, ?_, ?_, ?_⟩
  · intro ps
    obtain ⟨size, htally, hbytes⟩ := tally_scanRead read o ps
    refine ⟨size, htally, fun hsize => ?_⟩
    rw [hbytes]
    exact UInt64.toNat_ofNat_of_lt' hsize
  · intro ps qs
    have happend : scanRead read o (ps ++ qs) =
        (scanRead read o ps).followedBy (scanRead read o qs) := scanRead_append ps qs
    exact ⟨happend, happend ▸ manifest_followedBy _ _⟩
  · intro ps p qs e hjudge
    rw [scanRead_append, scanRead_cons, hjudge, scanRead_append]
    simp [Report.add, Report.followedBy]

/-- A module that cannot be read, one that is broken off, and a clean one. -/
def mixedModules (p : Path) : Except IoError ByteArray :=
  if p = ⟨"locked"⟩ then .error .permissionDenied
  else if p = ⟨"broken"⟩ then .ok "storiesOf('B".toUTF8
  else .ok "storiesOf('A').add('x')".toUTF8

theorem scanFiles_keeps_modules_apart_mixed :
    judge {} (mixedModules ⟨"locked"⟩) = .error IoError.permissionDenied.message ∧
    (scanRead mixedModules {} [⟨"clean"⟩, ⟨"locked"⟩, ⟨"broken"⟩]).files =
      [⟨⟨"clean"⟩, [⟨"A", ["x"]⟩]⟩] ∧
    (scanRead mixedModules {} [⟨"clean"⟩, ⟨"locked"⟩, ⟨"broken"⟩]).bytesScanned.toNat = 23 := by
  obtain ⟨-, htally, -, hfailing⟩ := scanFiles_keeps_modules_apart {} mixedModules
  obtain ⟨size, hsize, hbytes⟩ := htally [⟨"clean"⟩, ⟨"broken"⟩]
  have hlocked : judge {} (mixedModules ⟨"locked"⟩) =
      .error IoError.permissionDenied.message := rfl
  have hreport := hfailing [⟨"clean"⟩] ⟨"locked"⟩ [⟨"broken"⟩] _ hlocked
  have hclean : Tally mixedModules {} [⟨"clean"⟩, ⟨"broken"⟩] [⟨⟨"clean"⟩, [⟨"A", ["x"]⟩]⟩]
      [⟨⟨"broken"⟩, (Scan.Error.unterminatedLiteral 10).message⟩] 23 :=
    @Tally.clean _ _ _ _ _ _ _ "storiesOf('A').add('x')" _ rfl (by decide +kernel)
      (@Tally.malformed _ _ _ _ _ _ _ "storiesOf('B" _ rfl (by decide +kernel) .nil)
  obtain ⟨hfiles, -, rfl⟩ := hsize.unique hclean
  rw [List.cons_append, List.nil_append] at hreport
  rw [hreport]
  exact ⟨hlocked, hfiles, hbytes (by decide)⟩

end Docset.Survey
