import Docset.Build.Inclusion
import Docset.Proofs.Files.Copy

/-!
# Including a folder once more

Text is added only to files of the copy that the included folder has as well. Then the
next inclusion puts those files back before it adds the text again, and ends with the
tree that it began with.
-/
namespace Docset.Build

open FileSystem

variable {i : Inclusion} {output copy : Path} {fs mid after again : FileSystem}
  {place dest link : Location} {e : Entry} {P : Location → Prop}

def addTo (copy : Path) : Path × String → FileAction Error Unit
  | (file, text) => do
      let path := copy.join file
      if ← FileAction.inspect fun fs => .ok (fs.isFile path) then addToEnd path text

theorem perform_eq_ok_iff {result : Path} :
    i.perform output fs = .ok result after ↔
      ∃ n mid, Docset.copyTree i.source (output.join ⟨i.name⟩) fs = .ok n mid ∧
        i.additions.forM (addTo (output.join ⟨i.name⟩)) mid = .ok () after ∧
        result = output.join ⟨i.name⟩ := by
  have hunfold : i.perform output = (do
      let _ ← copyTree i.source (output.join ⟨i.name⟩)
      i.additions.forM (addTo (output.join ⟨i.name⟩))
      return output.join ⟨i.name⟩) := rfl
  rw [hunfold, FileAction.bind_eq_ok_iff]
  constructor
  · rintro ⟨n, mid, hcopy, h⟩
    obtain ⟨⟨⟩, mid', hadd, h⟩ := FileAction.bind_eq_ok_iff.mp h
    obtain ⟨rfl, rfl⟩ := FileAction.pure_eq_ok_iff.mp h
    exact ⟨n, mid, FileAction.mapError_eq_ok_iff.mp hcopy, hadd, rfl⟩
  · rintro ⟨n, mid, hcopy, hadd, rfl⟩
    refine ⟨n, mid, FileAction.mapError_eq_ok_iff.mpr hcopy, ?_⟩
    exact FileAction.bind_eq_ok_iff.mpr ⟨(), after, hadd, FileAction.pure_eq_ok_iff.mpr ⟨rfl, rfl⟩⟩

theorem addTo_of_file {file : Path} {l : Location} {old : ByteArray} {runnable : Bool}
    (text : String) (hstat : fs.stat (copy.join file) = .ok (l, .file old runnable)) :
    addTo copy (file, text) fs = .ok () (fs.put l (.file (old ++ text.toUTF8) runnable)) := by
  unfold addTo
  refine FileAction.bind_eq_ok_iff.mpr ⟨true, fs, FileAction.inspect_eq_ok_iff.mpr ⟨?_, rfl⟩, ?_⟩
  · exact congrArg _ (isFile_iff.mpr ⟨l, old, runnable, hstat⟩)
  · exact FileAction.mapError_eq_ok_iff.mpr
      (FileAction.change_eq_ok_iff.mpr (append_of_file hstat))

theorem addTo_of_not_isFile {file : Path} (text : String) (h : ¬ fs.isFile (copy.join file)) :
    addTo copy (file, text) fs = .ok () fs := by
  unfold addTo
  refine FileAction.bind_eq_ok_iff.mpr ⟨false, fs, FileAction.inspect_eq_ok_iff.mpr ⟨?_, rfl⟩, rfl⟩
  exact congrArg _ (by simpa using h)

theorem addTo_cases {addition : Path × String}
    (h : addTo copy addition fs = .ok () after) :
    after = fs ∨ ∃ l old bytes runnable,
      fs.stat (copy.join addition.1) = .ok (l, .file old runnable) ∧
        after = fs.put l (.file bytes runnable) := by
  obtain ⟨file, text⟩ := addition
  by_cases hfile : fs.isFile (copy.join file)
  · obtain ⟨l, old, runnable, hstat⟩ := isFile_iff.mp hfile
    rw [addTo_of_file text hstat] at h
    cases h
    exact .inr ⟨l, old, _, runnable, hstat, rfl⟩
  · rw [addTo_of_not_isFile text hfile] at h
    cases h
    exact .inl rfl

theorem grows_of_additions {additions : List (Path × String)}
    (h : additions.forM (addTo copy) fs = .ok () after)
    (hP : ∀ a ∈ additions, ∀ l bytes runnable,
      after.stat (copy.join a.1) = .ok (l, .file bytes runnable) → P l) : Grows P fs after := by
  induction additions generalizing fs with
  | nil =>
      obtain ⟨-, rfl⟩ := FileAction.pure_eq_ok_iff.mp h
      exact .refl _
  | cons a additions ih =>
      obtain ⟨⟨⟩, mid, hfirst, hrest⟩ := FileAction.bind_eq_ok_iff.mp h
      have hgrows := ih hrest fun b hb => hP b (List.mem_cons_of_mem _ hb)
      rcases addTo_cases hfirst with rfl | ⟨l, old, bytes, runnable, hstat, rfl⟩
      · exact hgrows
      · have htouch : fs.Touch l (.file bytes runnable) :=
          .refill (get?_of_resolve (stat_eq_ok_iff.mp hstat))
        -- The file is still there at the end, which is where `P` is known of it.
        obtain ⟨e, he, halike⟩ := (htouch.keeps.trans hgrows.keeps).lookUp hstat
        obtain ⟨bytes', runnable', rfl⟩ := halike.exists_file
        exact (Grows.single htouch (hP a (by simp) l bytes' runnable' he)).trans hgrows

theorem grows_of_perform {result : Path} (hfs : fs.WellFormed)
    (h : i.perform output fs = .ok result after) : Grows (fun _ => True) fs after := by
  obtain ⟨n, mid, hcopy, hadd, -⟩ := perform_eq_ok_iff.mp h
  exact (grows_of_copyTree hfs hcopy).trans
    (grows_of_additions hadd fun _ _ _ _ _ _ => trivial)

/-- How an inclusion that succeeded leaves the tree: the two folders are apart, the copy holds no
links, and additions were made to copied files only. A folder that is included by way of a link
was copied to a folder that was there. -/
structure Inclusion.Tidy (i : Inclusion) (output : Path) (fs after : FileSystem)
    (place dest : Location) : Prop where
  ready : Ready after i.source place (output.join ⟨i.name⟩) dest
  linked : ∀ l t, after.lstat i.source = .ok (l, .link t) → fs.isFolder (output.join ⟨i.name⟩)
  additions : ∀ a ∈ i.additions, ∀ l bytes runnable,
    after.stat ((output.join ⟨i.name⟩).join a.1) = .ok (l, .file bytes runnable) →
      Counterpart after place dest l

section Tidy
variable {result : Path}

theorem Inclusion.Tidy.of_grows (ht : i.Tidy output fs after place dest) (h : Keeps fs mid) :
    i.Tidy output mid after place dest :=
  { ht with linked := fun l t hl => h.isFolder (ht.linked l t hl) }

theorem Inclusion.Tidy.sameBelow (ht : i.Tidy output fs after place dest) (hmid : mid.WellFormed)
    (h : Grows (Counterpart after place dest) mid after) : SameBelow place mid after :=
  sameBelow_of_grows ht.ready.apart hmid (h.mono fun _ hl => hl.suffix)

theorem Inclusion.Tidy.isFolder_of_link (ht : i.Tidy output fs after place dest)
    (k : Keeps fs after) (hstat : fs.stat i.source = .ok (place, .folder))
    (hlstat : fs.lstat i.source = .ok (link, e)) (he : e ≠ .folder) :
    fs.isFolder (output.join ⟨i.name⟩) := by
  obtain ⟨t, rfl⟩ := (folder_or_link hlstat hstat).resolve_left fun hfolder => he hfolder.2
  obtain ⟨e', he', halike⟩ := k.lookUp hlstat
  cases halike
  exact ht.linked link t he'

/-- An inclusion that left the tree tidy leads from there, and from any tree in which only copied
files have changed since, to the same tree again. -/
theorem perform_again (hfs : fs.WellFormed) (htext : (output.join ⟨i.name⟩).text ≠ "")
    (hstat : fs.stat i.source = .ok (place, .folder))
    (h : i.perform output fs = .ok result after) (ht : i.Tidy output fs after place dest)
    (hgrows : Grows (Counterpart after place dest) after again) :
    i.perform output again = .ok result after := by
  have k := (grows_of_perform hfs h).keeps
  obtain ⟨link, e, hlstat⟩ := lstat_of_stat hstat
  obtain ⟨n, mid, hcopy, hadd, rfl⟩ := perform_eq_ok_iff.mp h
  have hadded := grows_of_additions hadd ht.additions
  have hsame := ht.sameBelow ((grows_of_copyTree hfs hcopy).wellFormed hfs) hadded
  have hagain := copyTree_again hfs htext hlstat hstat (ht.isFolder_of_link k hstat hlstat) hcopy
    ((hadded.trans hgrows).mono fun l => .of_sameBelow hsame) (ht.ready.grows hgrows)
  exact perform_eq_ok_iff.mpr ⟨n, mid, hagain, hadd, rfl⟩

/-- An inclusion changes nothing that was there but copied files. -/
theorem get?_of_perform {l : Location} {x : Entry} (hfs : fs.WellFormed)
    (htext : (output.join ⟨i.name⟩).text ≠ "")
    (hstat : fs.stat i.source = .ok (place, .folder))
    (h : i.perform output fs = .ok result after) (ht : i.Tidy output fs after place dest)
    (hget : fs.get? l = some x) (hl : ¬ Counterpart after place dest l) :
    after.get? l = some x := by
  have k := (grows_of_perform hfs h).keeps
  obtain ⟨link, e, hlstat⟩ := lstat_of_stat hstat
  obtain ⟨n, mid, hcopy, hadd, rfl⟩ := perform_eq_ok_iff.mp h
  have hadded := grows_of_additions hadd ht.additions
  have hsame := ht.sameBelow ((grows_of_copyTree hfs hcopy).wellFormed hfs) hadded
  rw [hadded.get?_eq hl]
  exact get?_of_copyTree hfs htext hlstat hstat (ht.isFolder_of_link k hstat hlstat) hcopy
    hadded.keeps ht.ready hget fun hc => hl (hc.of_sameBelow hsame.symm)

end Tidy

end Docset.Build
