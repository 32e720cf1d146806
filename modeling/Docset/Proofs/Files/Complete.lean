import Docset.Proofs.Files.Inside
import Docset.Proofs.Files.Opening

/-!
# Copies that go through

A copy fails where a path cannot be used, or where a file and a folder have the same name. If
neither happens it goes through, and its count is the number of files of the source. The
condition is kept by the copy of each entry, since that leaves at every counterpart the entry
that it stands for.
-/
namespace Docset

def Entry.isFile : Entry → Bool
  | .file _ _ => true
  | .folder => false
  | .link _ => false
  | .void => false

theorem Entry.isFile_iff {e : Entry} : e.isFile ↔ ∃ bytes runnable, e = .file bytes runnable := by
  cases e <;> simp [isFile]

open FileSystem

variable {fs mid after : FileSystem} {path target : Path} {place dest l : Location} {e : Entry}
  {name : String} {count depth : Nat} {bytes : ByteArray} {runnable : Bool}

/-! ## The number of files -/

namespace FileSystem

/-- The files at a place and below it. -/
def filesUnder (fs : FileSystem) (place : Location) : List Location :=
  (fs.entries.filter fun p => place.isSuffixOf p.1 && p.2.isFile).map (·.1)

theorem WellFormed.mem_filesUnder_iff (hfs : fs.WellFormed) :
    l ∈ fs.filesUnder place ↔
      place <:+ l ∧ ∃ bytes runnable, fs.get? l = some (.file bytes runnable) := by
  unfold filesUnder
  simp only [List.mem_map, List.mem_filter, Bool.and_eq_true, List.isSuffixOf_iff_suffix,
    Entry.isFile_iff]
  constructor
  · rintro ⟨⟨k, e⟩, ⟨hmem, hplace, bytes, runnable, rfl⟩, rfl⟩
    exact ⟨hplace, bytes, runnable, hfs.get?_of_mem hmem⟩
  · rintro ⟨hplace, bytes, runnable, hget⟩
    have hne : l ≠ [] := by
      rintro rfl
      cases hget
    exact ⟨_, ⟨mem_of_get? hget hne, hplace, bytes, runnable, rfl⟩, rfl⟩

theorem WellFormed.nodup_filesUnder (hfs : fs.WellFormed) (place : Location) :
    (fs.filesUnder place).Nodup :=
  hfs.nodup.sublist (List.filter_sublist.map _)

theorem WellFormed.length_filesUnder (hfs : fs.WellFormed) (ls : List Location) (hls : ls.Nodup)
    (hmem : ∀ l, l ∈ ls ↔
      place <:+ l ∧ ∃ bytes runnable, fs.get? l = some (.file bytes runnable)) :
    (fs.filesUnder place).length = ls.length := by
  refine List.Perm.length_eq ?_
  refine (List.perm_ext_iff_of_nodup (hfs.nodup_filesUnder place) hls).mpr fun l => ?_
  rw [hfs.mem_filesUnder_iff, hmem]

theorem WellFormed.length_filesUnder_of_file (hfs : fs.WellFormed)
    (hget : fs.get? place = some (.file bytes runnable)) : (fs.filesUnder place).length = 1 := by
  refine hfs.length_filesUnder [place] (by simp) fun l => ?_
  rw [List.mem_singleton]
  constructor
  · rintro rfl
    exact ⟨List.suffix_refl _, bytes, runnable, hget⟩
  · rintro ⟨⟨names, rfl⟩, bytes', runnable', hget'⟩
    cases names with
    | nil => rfl
    | cons inner names =>
        have hfolder := hfs.get?_append (inner :: names) (by simp) (by rw [hget']; rfl)
        rw [hget] at hfolder
        cases hfolder

theorem WellFormed.length_filesUnder_of_not_copied (hfs : fs.WellFormed)
    (hget : fs.get? place = some e) (he : e.copied = false) :
    (fs.filesUnder place).length = 0 := by
  refine hfs.length_filesUnder [] (by simp) fun l => ?_
  refine iff_of_false (by simp) ?_
  rintro ⟨⟨names, rfl⟩, bytes, runnable, hget'⟩
  cases names with
  | nil =>
      rw [List.nil_append, hget] at hget'
      cases hget'
      cases he
  | cons inner names =>
      have hfolder := hfs.get?_append (inner :: names) (by simp) (by rw [hget']; rfl)
      rw [hget] at hfolder
      cases hfolder
      cases he

theorem WellFormed.length_filesUnder_of_folder (hfs : fs.WellFormed)
    (hget : fs.get? place = some .folder) :
    (fs.filesUnder place).length =
      ((fs.children place).map fun c => (fs.filesUnder (c.1 :: place)).length).sum := by
  rw [← List.length_flatMap]
  refine hfs.length_filesUnder _ ?_ fun l => ?_
  · refine List.nodup_flatMap.mpr ⟨fun c _ => hfs.nodup_filesUnder _, ?_⟩
    refine (List.pairwise_map.mp (hfs.nodup_children place)).imp ?_
    intro c c' hne l hl hl'
    have hsuffix := (hfs.mem_filesUnder_iff.mp hl).1
    have hsuffix' := (hfs.mem_filesUnder_iff.mp hl').1
    -- Two entries of one folder have nothing in common.
    have hsame := List.suffix_of_suffix_length_le hsuffix hsuffix' (by simp)
    exact hne (by simpa using hsame.eq_of_length (by simp))
  · simp only [List.mem_flatMap, hfs.mem_filesUnder_iff]
    constructor
    · rintro ⟨c, -, hsuffix, hfile⟩
      exact ⟨(List.suffix_cons c.1 place).trans hsuffix, hfile⟩
    · rintro ⟨⟨names, rfl⟩, bytes, runnable, hfile⟩
      rcases List.eq_nil_or_concat names with rfl | ⟨inits, name, rfl⟩
      · rw [List.nil_append, hget] at hfile
        cases hfile
      · rw [List.concat_eq_append, List.append_assoc, List.singleton_append] at hfile ⊢
        obtain ⟨e, he⟩ := hfs.exists_of_append hfile
        exact ⟨(name, e), hfs.mem_children_iff.mpr he, List.suffix_append _ _, bytes, runnable,
          hfile⟩

theorem SameBelow.length_filesUnder (hsame : SameBelow place fs mid) (hfs : fs.WellFormed)
    (hmid : mid.WellFormed) : (mid.filesUnder place).length = (fs.filesUnder place).length := by
  refine hmid.length_filesUnder _ (hfs.nodup_filesUnder place) fun l => ?_
  rw [hfs.mem_filesUnder_iff]
  refine and_congr_right fun hl => ?_
  rw [(hsame l hl).1]

/-! ## What a copy needs -/

/-- Every path of a copy can be used, and where something stands at a counterpart, it is a folder
for a folder and a file for a file. -/
structure Fits (fs : FileSystem) (path : Path) (place : Location) (target : Path)
    (dest : Location) : Prop where
  usable : ∀ names {e}, fs.get? (names.reverse ++ place) = some e → e.copied →
    checkPath (path.below names) = .ok () ∧ checkPath (target.below names) = .ok ()
  alike : ∀ names {e e'}, fs.get? (names ++ place) = some e → e.copied →
    fs.get? (names ++ dest) = some e' → Entry.Alike e e'

theorem Ready.checkPath (hr : Ready fs path place target dest)
    (h : Fits fs path place target dest) : checkPath path = .ok () :=
  (h.usable [] (get?_of_resolve (stat_eq_ok_iff.mp hr.source)) rfl).1

theorem Fits.cons (h : Fits fs path place target dest) (name : String) :
    Fits fs (path.join ⟨name⟩) (name :: place) (target.join ⟨name⟩) (name :: dest) where
  usable names e hget he := by
    have hnames := h.usable (name :: names) (by simpa using hget) he
    rwa [Path.below_cons, Path.below_cons] at hnames
  alike names e e' hget he hget' :=
    h.alike (names ++ [name]) (by simpa using hget) he (by simpa using hget')

/-- The condition is kept where each counterpart that is touched becomes what it stands for. -/
theorem Fits.grows {P : Location → Prop} (h : Fits fs path place target dest)
    (hgrows : Grows P fs mid) (hsame : SameBelow place fs mid)
    (hP : ∀ names {e}, P (names ++ dest) → fs.get? (names ++ place) = some e → e.copied →
      mid.get? (names ++ dest) = some e) : Fits mid path place target dest where
  usable names e hget he := by
    rw [(hsame _ (List.suffix_append _ _)).1] at hget
    exact h.usable names hget he
  alike names e e' hget he hget' := by
    rw [(hsame _ (List.suffix_append _ _)).1] at hget
    by_cases hl : P (names ++ dest)
    · rw [hP names hl hget he] at hget'
      cases hget'
      exact .refl _
    · rw [hgrows.get?_eq hl] at hget'
      exact h.alike names hget he hget'

theorem Fits.of_copies (h : Fits fs path place target dest) (hsame : SameBelow place fs mid)
    (hcopies : Copies fs mid (name :: place) (name :: dest)) :
    Fits mid path place target dest := by
  refine h.grows hcopies.grows hsame fun names e hl hget he => ?_
  obtain ⟨inits, e', heq, hget', he'⟩ := hl
  have hnames : names = inits ++ [name] :=
    (List.append_left_inj dest).mp (by simpa using heq)
  subst hnames
  rw [List.append_assoc, List.singleton_append] at hget ⊢
  exact hcopies.copied inits hget he

end FileSystem

/-! ## Entry by entry -/

theorem utf8ByteSize_lt_join (path : Path) (hne : name ≠ "") (hslash : '/' ∉ name.toList) :
    path.text.utf8ByteSize < (path.join ⟨name⟩).text.utf8ByteSize := by
  have habs := Path.isAbsolute_of_slash_notMem hslash
  have hsize : 0 < name.utf8ByteSize := by
    rw [Nat.pos_iff_ne_zero]
    simpa using hne
  unfold Path.join
  rw [if_neg (by simp [habs])]
  split
  · simp only [String.utf8ByteSize_append]
    omega
  · simp only [String.utf8ByteSize_append]
    omega

theorem copyEntry_file_succeeds (hfs : fs.WellFormed) (hr : Ready fs path place target dest)
    (hfits : Fits fs path place target dest)
    (hget : fs.get? (name :: place) = some (.file bytes runnable)) :
    ∃ after, copyEntry depth path place target count (name, .file bytes runnable) fs =
      .ok (count + 1) after := by
  have hname : IsName name := (hfs.placed_of_get? (by simp) hget).1
  obtain ⟨hsource, htarget⟩ := hfits.usable [name] hget rfl
  have hne : place ≠ dest := fun heq => hr.apart.1 (heq ▸ List.suffix_refl _)
  have hdest : fs.get? (name :: dest) = none ∨
      ∃ old was, fs.get? (name :: dest) = some (.file old was) := by
    cases hold : fs.get? (name :: dest) with
    | none => exact .inl rfl
    | some e' =>
        obtain ⟨old, was, rfl⟩ := (hfits.alike [name] hget rfl hold).exists_file
        exact .inr ⟨old, was, rfl⟩
  obtain ⟨after, hcopy, -⟩ :=
    copyFile_join hr.source hr.target hne hname hsource htarget hget hdest
  exact ⟨after, copyEntry_file_eq_ok_iff.mpr ⟨hcopy, rfl⟩⟩

/-- The folder for the copy of a folder is there or can be made, and all that follows can still be
copied into it. -/
theorem makeFolders_fits (hfs : fs.WellFormed) (hr : Ready fs path place target dest)
    (hfits : Fits fs path place target dest) (hget : fs.get? (name :: place) = some .folder) :
    ∃ mid, makeFolders (target.join ⟨name⟩) fs = .ok () mid ∧ mid.WellFormed ∧
      SameBelow place fs mid ∧
      Ready mid (path.join ⟨name⟩) (name :: place) (target.join ⟨name⟩) (name :: dest) ∧
      Fits mid (path.join ⟨name⟩) (name :: place) (target.join ⟨name⟩) (name :: dest) := by
  have hname : IsName name := (hfs.placed_of_get? (by simp) hget).1
  obtain ⟨hsource, htarget⟩ := hfits.usable [name] hget rfl
  obtain ⟨mid, hmade⟩ : ∃ mid, makeFolders (target.join ⟨name⟩) fs = .ok () mid := by
    cases hold : fs.get? (name :: dest) with
    | none => exact ⟨_, (makeFolders_join_missing hr.target hname htarget hold).2⟩
    | some e' =>
        cases hfits.alike [name] hget rfl hold
        exact ⟨fs, makeFolders_of_isFolder (.inr (isFolder_iff.mpr
          ⟨_, stat_join hr.target hname htarget hold (by rintro t ⟨⟩)⟩))⟩
  obtain ⟨-, hgrows, hdest⟩ := makeFolders_join hr.target hname hr.ne_link hmade
  have hsame : SameBelow place fs mid :=
    hr.sameBelow_cons hfs hgrows (by rintro l rfl; exact List.suffix_refl _)
  have hfitsMid : Fits mid path place target dest := by
    refine hfits.grows hgrows hsame fun names e hl hget' he => ?_
    have hnames : names = [name] := (List.append_left_inj dest).mp (by simpa using hl)
    subst hnames
    rw [List.singleton_append, hget] at hget'
    cases hget'
    exact hdest
  exact ⟨mid, hmade, hgrows.wellFormed hfs, hsame,
    (hr.grows hgrows).cons hname hsource htarget (hgrows.keeps.folder hget) hdest,
    hfitsMid.cons name⟩

theorem copyEntry_succeeds
    (hbelow : ∀ {path place target dest} {fs : FileSystem}, fs.WellFormed →
      Ready fs path place target dest → Fits fs path place target dest →
      4095 < depth + path.text.utf8ByteSize →
      ∃ after, copyBelow depth path place target fs = .ok (fs.filesUnder place).length after)
    (hfs : fs.WellFormed) (hr : Ready fs path place target dest)
    (hfits : Fits fs path place target dest)
    (hdepth : 4095 < depth + 1 + path.text.utf8ByteSize)
    (hget : fs.get? (name :: place) = some e) :
    ∃ after, copyEntry depth path place target count (name, e) fs =
      .ok (count + (fs.filesUnder (name :: place)).length) after := by
  cases he : e.copied with
  | false =>
      rw [hfs.length_filesUnder_of_not_copied hget he]
      exact ⟨fs, copyEntry_of_not_copied he⟩
  | true =>
      cases e with
      | link t => cases he
      | void => cases he
      | file bytes runnable =>
          rw [hfs.length_filesUnder_of_file hget]
          exact copyEntry_file_succeeds hfs hr hfits hget
      | folder =>
          obtain ⟨mid, hmade, hmid, hsame, hready, hfitsMid⟩ := makeFolders_fits hfs hr hfits hget
          have hname : IsName name := (hfs.placed_of_get? (by simp) hget).1
          have hlt := utf8ByteSize_lt_join path hname.1.1 hname.2.1
          obtain ⟨after, hafter⟩ := hbelow hmid hready hfitsMid (by omega)
          have hcount := (hsame.below (List.suffix_cons name place)).length_filesUnder hfs hmid
          rw [hcount] at hafter
          exact ⟨after, copyEntry_folder_eq_ok_iff.mpr ⟨(), mid, _, hmade, hafter, rfl⟩⟩

theorem foldlM_copyEntry_succeeds
    (hentry : ∀ (fs : FileSystem) count name e, fs.WellFormed →
      Ready fs path place target dest → Fits fs path place target dest →
      fs.get? (name :: place) = some e →
      ∃ after, copyEntry depth path place target count (name, e) fs =
        .ok (count + (fs.filesUnder (name :: place)).length) after)
    {cs : List (String × Entry)} (hfs : fs.WellFormed) (hr : Ready fs path place target dest)
    (hfits : Fits fs path place target dest)
    (hcs : ∀ c ∈ cs, fs.get? (c.1 :: place) = some c.2) :
    ∀ count, ∃ after, cs.foldlM (copyEntry depth path place target) count fs =
      .ok (count + (cs.map fun c => (fs.filesUnder (c.1 :: place)).length).sum) after := by
  induction cs generalizing fs with
  | nil => exact fun count => ⟨fs, rfl⟩
  | cons c cs ih =>
      intro count
      obtain ⟨name, e⟩ := c
      have hget := hcs (name, e) (by simp)
      obtain ⟨mid, hfirst⟩ := hentry fs count name e hfs hr hfits hget
      have hcopies := copies_of_copyEntry copies_of_copyBelow hfs hr hget hfirst
      have hmid := hcopies.grows.wellFormed hfs
      have hsame : SameBelow place fs mid :=
        hr.sameBelow_cons hfs hcopies.grows fun l hl => hl.suffix
      have hcsMid : ∀ c ∈ cs, mid.get? (c.1 :: place) = some c.2 := by
        intro c hc
        rw [(hsame _ (List.suffix_cons c.1 place)).1]
        exact hcs c (List.mem_cons_of_mem _ hc)
      obtain ⟨after, hrest⟩ := ih hmid (hr.grows hcopies.grows) (hfits.of_copies hsame hcopies)
        hcsMid (count + (fs.filesUnder (name :: place)).length)
      have hcounts : (cs.map fun c => (mid.filesUnder (c.1 :: place)).length) =
          cs.map fun c => (fs.filesUnder (c.1 :: place)).length :=
        List.map_congr_left fun c _ =>
          (hsame.below (List.suffix_cons c.1 place)).length_filesUnder hfs hmid
      refine ⟨after, ?_⟩
      rw [List.foldlM_cons]
      refine FileAction.bind_eq_ok_iff.mpr ⟨_, mid, hfirst, ?_⟩
      rw [hrest, hcounts, List.map_cons, List.sum_cons, Nat.add_assoc]

/-- A copy that nothing is in the way of goes through, and counts the files of its source. -/
theorem copyBelow_succeeds (hfs : fs.WellFormed) (hr : Ready fs path place target dest)
    (hfits : Fits fs path place target dest) (hdepth : 4095 < depth + path.text.utf8ByteSize) :
    ∃ after, copyBelow depth path place target fs = .ok (fs.filesUnder place).length after := by
  induction depth generalizing fs path place target dest with
  | zero =>
      have hshort := (checkPath_eq_ok_iff.mp (hr.checkPath hfits)).2.2
      omega
  | succ depth ih =>
      have hplace := get?_of_resolve (stat_eq_ok_iff.mp hr.source)
      obtain ⟨after, hafter⟩ := foldlM_copyEntry_succeeds
        (fun _ _ _ _ hfs hr hfits hget => copyEntry_succeeds ih hfs hr hfits hdepth hget)
        hfs hr hfits (fun c hc => hfs.mem_children_iff.mp hc) 0
      rw [Nat.zero_add, ← hfs.length_filesUnder_of_folder hplace] at hafter
      exact ⟨after, copyBelow_eq_ok_iff.mpr ⟨hr.checkPath hfits, hafter⟩⟩

end Docset
