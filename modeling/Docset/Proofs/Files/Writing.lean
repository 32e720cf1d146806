import Docset.Files.Folders
import Docset.Proofs.Files.Lookup

/-!
# What writing does

Making folders, writing a file and copying one let the tree grow. Done once more, they
change nothing or put back what they put there: a folder is found where it was made, and a
file where it was created. In a folder that is already there, under a name, each of them
touches that one place only.
-/
namespace Docset

namespace FileSystem

variable {fs after made : FileSystem} {purpose : Purpose} {place dest l : Location} {e : Entry}
  {name : String} {p source target : Path} {bytes : ByteArray} {runnable : Bool}

/-! ## Folders -/

theorem makeFolder_eq_ok_iff :
    fs.makeFolder p = .ok made ↔ checkPath p = .ok () ∧
      ∃ l, fs.resolve .itself p.withoutEndSlashes = .ok (.missing l) ∧ made = fs.put l .folder := by
  unfold makeFolder
  rw [except_bind_eq_ok_iff]
  constructor
  · rintro ⟨⟨⟩, hcheck, h⟩
    obtain ⟨t, ht, h⟩ := except_bind_eq_ok_iff.mp h
    cases t with
    | found l e => cases h
    | missing l =>
        cases h
        exact ⟨hcheck, l, ht, rfl⟩
  · rintro ⟨hcheck, l, hl, rfl⟩
    exact ⟨(), hcheck, except_bind_eq_ok_iff.mpr ⟨_, hl, rfl⟩⟩

theorem free_of_makeFolder (h : fs.makeFolder p = .ok made) :
    ∃ l, fs.Free l ∧ made = fs.put l .folder ∧ made.isFolder p := by
  obtain ⟨hcheck, l, hl, rfl⟩ := makeFolder_eq_ok_iff.mp h
  have hfree := free_of_resolve hl
  have htouch : fs.Touch l .folder := .folder hfree
  have hget : (fs.put l .folder).get? l = some .folder := by simp [get?_put _ htouch.ne_nil]
  exact ⟨l, hfree, rfl, isFolder_iff.mpr ⟨l, htouch.keeps.stat_made hcheck hl hget⟩⟩

theorem makeFolder_of_isFolder (h : fs.isFolder p) : fs.makeFolder p = .error .alreadyExists := by
  obtain ⟨l, hl⟩ := isFolder_iff.mp h
  obtain ⟨hcheck, -⟩ := resolve_eq_ok_iff.mp (stat_eq_ok_iff.mp hl)
  obtain ⟨k, e, hk⟩ := resolve_itself_of_isFolder h
  simp [makeFolder, hcheck, hk, bind, Except.bind]

end FileSystem

open FileSystem

variable {fs after : FileSystem} {place l : Location} {name : String} {p target : Path}

theorem Path.ancestors_eq_cons (p : Path) : ∃ around, p.ancestors = p :: around := by
  unfold Path.ancestors
  cases p.text.length with
  | zero => exact ⟨[], rfl⟩
  | succ n =>
      unfold Path.around
      split
      · exact ⟨_, rfl⟩
      · exact ⟨[], rfl⟩

/-- Making folders touches only places where nothing was, and leads to a folder. -/
theorem grows_of_makeAll {ps : List Path} {u : Unit} (h : makeAll ps fs = .ok u after) :
    Grows (fun l => fs.get? l = none) fs after ∧
      ∀ p ∈ ps.head?, p.text = "" ∨ after.isFolder p := by
  induction ps generalizing fs after with
  | nil => cases h
  | cons p around ih =>
      simp only [List.head?_cons, Option.mem_def, Option.some.injEq, forall_eq']
      unfold makeAll at h
      split at h
      · rename_i hempty
        cases h
        exact ⟨.refl _, .inl hempty⟩
      split at h
      · rename_i made hmade
        cases h
        obtain ⟨l, hfree, rfl, hfolder⟩ := free_of_makeFolder hmade
        exact ⟨.single (.folder hfree) hfree.1, .inr hfolder⟩
      · split at h
        · cases h
        rename_i mid hmid
        obtain ⟨hgrows, -⟩ := ih hmid
        split at h
        · rename_i made hmade
          cases h
          obtain ⟨l, hfree, rfl, hfolder⟩ := free_of_makeFolder hmade
          exact ⟨hgrows.step (.folder hfree) (hgrows.keeps.get?_eq_none hfree.1), .inr hfolder⟩
        · split at h
          · rename_i hfolder
            cases h
            exact ⟨hgrows, .inr hfolder⟩
          · cases h
      · split at h
        · rename_i hfolder
          cases h
          exact ⟨.refl _, .inr hfolder⟩
        · cases h

theorem grows_of_makeFolders {u : Unit} (h : makeFolders p fs = .ok u after) :
    Grows (fun l => fs.get? l = none) fs after ∧ (p.text = "" ∨ after.isFolder p) := by
  obtain ⟨around, haround⟩ := p.ancestors_eq_cons
  unfold makeFolders at h
  rw [haround] at h
  obtain ⟨hgrows, hhead⟩ := grows_of_makeAll h
  exact ⟨hgrows, hhead p rfl⟩

theorem makeFolders_of_isFolder (h : p.text = "" ∨ fs.isFolder p) :
    makeFolders p fs = .ok () fs := by
  obtain ⟨around, haround⟩ := p.ancestors_eq_cons
  unfold makeFolders makeAll
  rw [haround]
  by_cases hempty : p.text = ""
  · simp [hempty]
  · have hfolder := h.resolve_left hempty
    simp [hempty, makeFolder_of_isFolder hfolder, hfolder]

theorem makeFolders_join_missing (htarget : fs.stat target = .ok (place, .folder))
    (hname : IsName name) (hcheck : checkPath (target.join ⟨name⟩) = .ok ())
    (hget : fs.get? (name :: place) = none) :
    fs.Free (name :: place) ∧
      makeFolders (target.join ⟨name⟩) fs = .ok () (fs.put (name :: place) .folder) := by
  have hmissing : fs.resolve .itself (target.join ⟨name⟩) = .ok (.missing (name :: place)) :=
    resolve_join_missing htarget hname hcheck hget
  have hmade : fs.makeFolder (target.join ⟨name⟩) = .ok (fs.put (name :: place) .folder) := by
    refine makeFolder_eq_ok_iff.mpr ⟨hcheck, _, ?_, rfl⟩
    rwa [Path.withoutEndSlashes_join hname.1.1 hname.2.1]
  have hne := Path.text_join_ne_empty (p := target) hname.1.1 hname.2.1
  obtain ⟨around, haround⟩ := (target.join ⟨name⟩).ancestors_eq_cons
  refine ⟨free_of_resolve hmissing, ?_⟩
  unfold makeFolders makeAll
  rw [haround]
  simp only [hne, if_false, hmade]

theorem makeFolders_join {u : Unit} (htarget : fs.stat target = .ok (place, .folder))
    (hname : IsName name) (hlink : ∀ t, fs.get? (name :: place) ≠ some (.link t))
    (h : makeFolders (target.join ⟨name⟩) fs = .ok u after) :
    checkPath (target.join ⟨name⟩) = .ok () ∧ Grows (· = name :: place) fs after ∧
      after.get? (name :: place) = some .folder := by
  have hne := Path.text_join_ne_empty (p := target) hname.1.1 hname.2.1
  have hfolder := (grows_of_makeFolders h).2.resolve_left hne
  obtain ⟨l, hl⟩ := isFolder_iff.mp hfolder
  obtain ⟨hcheck, -⟩ := resolve_eq_ok_iff.mp (stat_eq_ok_iff.mp hl)
  refine ⟨hcheck, ?_⟩
  cases hget : fs.get? (name :: place) with
  | none =>
      obtain ⟨hfree, hmade⟩ := makeFolders_join_missing htarget hname hcheck hget
      rw [hmade] at h
      cases h
      exact ⟨.single (.folder hfree) rfl, by simp [get?_put]⟩
  | some e =>
      have hfound : fs.resolve .followed (target.join ⟨name⟩) = .ok (.found (name :: place) e) :=
        resolve_join_found htarget hname hcheck hget
          (fun t heq => hlink t (heq ▸ hget))
      -- What was there before is still there, so it was a folder, and nothing was made.
      obtain ⟨e', he', halike⟩ := (grows_of_makeFolders h).1.keeps.resolve hfound
      rw [stat_eq_ok_iff, he'] at hl
      cases hl
      cases halike
      have hbefore : fs.isFolder (target.join ⟨name⟩) :=
        isFolder_iff.mpr ⟨_, stat_eq_ok_iff.mpr hfound⟩
      rw [makeFolders_of_isFolder (.inr hbefore)] at h
      cases h
      exact ⟨.refl _, hget⟩

/-! ## Files -/

namespace FileSystem

variable {e : Entry} {purpose : Purpose} {dest : Location} {path source : Path} {bytes : ByteArray}
  {runnable : Bool}

theorem WellFormed.put_self (hfs : fs.WellFormed) (hl : l ≠ []) (h : fs.get? l = some e) :
    fs.put l e = fs := by
  have hany : fs.entries.any (·.1 = l) = true :=
    List.any_eq_true.mpr ⟨_, mem_of_get? h hl, by simp⟩
  have hmap : fs.entries.map (fun p => if p.1 = l then (l, e) else p) = fs.entries := by
    conv_rhs => rw [← List.map_id fs.entries]
    refine List.map_congr_left fun p hp => ?_
    split
    · rename_i heq
      have := hfs.get?_of_mem (l := p.1) (e := p.2) hp
      rw [heq, h] at this
      cases this
      exact Prod.ext heq.symm rfl
    · rfl
  unfold put
  rw [if_pos hany, hmap]

theorem fill_of_none (h : fs.get? l = none) : fs.fill l bytes = fs.put l (.file bytes false) := by
  simp [fill, h]

theorem fill_of_file {old : ByteArray} (h : fs.get? l = some (.file old runnable)) :
    fs.fill l bytes = fs.put l (.file bytes runnable) := by
  simp [fill, h]

theorem fill_of_void (h : fs.get? l = some .void) : fs.fill l bytes = fs := by
  simp [fill, h]

/-- A link is never taken for the file to be written or read, but followed. -/
theorem ne_link_of_resolve (hfs : fs.WellFormed) (hpurpose : purpose ≠ .itself)
    (h : fs.resolve purpose p = .ok (.found l e)) : ∀ t, e ≠ .link t := by
  obtain ⟨-, hfollow⟩ := resolve_eq_ok_iff.mp h
  obtain ⟨u, -, hu⟩ := follow_simulate (fs.stretch purpose) (fs.stretch purpose)
    (S := fun ps qs => ps = qs ∧ ps ≠ []) (R := fun _ => ∀ t, e ≠ .link t)
    (fun hS hgo => ⟨_, hS.1 ▸ hgo, (walk_of_stretch hgo).ne_link hfs hpurpose (.inl hS.2)⟩)
    (fun hS hgo => .inr ⟨_, hS.1 ▸ hgo, rfl, (walk_of_stretch hgo).more_ne_nil⟩)
    ⟨rfl, p.pieces_ne_nil⟩ hfollow
  exact hu

/-- What bytes can be put into: a file, or the null device. -/
def Writable (fs : FileSystem) (l : Location) : Prop :=
  (∃ old was, fs.get? l = some (.file old was)) ∨ fs.get? l = some .void

theorem get?_refill {old : ByteArray} {was : Bool} (h : fs.get? l = some (.file old was))
    (bytes : ByteArray) (runnable : Bool) :
    fs.Touch l (.file bytes runnable) ∧
      (fs.put l (.file bytes runnable)).get? l = some (.file bytes runnable) := by
  have htouch : fs.Touch l (.file bytes runnable) := .refill h
  exact ⟨htouch, by rw [get?_put _ htouch.ne_nil, if_pos rfl]⟩

theorem Writable.fill (h : fs.Writable l) (bytes : ByteArray) :
    Grows (· = l) fs (fs.fill l bytes) ∧ (fs.fill l bytes).Writable l := by
  rcases h with ⟨old, was, hfile⟩ | hvoid
  · obtain ⟨htouch, hget⟩ := get?_refill hfile bytes was
    rw [fill_of_file hfile]
    exact ⟨.single htouch rfl, .inl ⟨bytes, was, hget⟩⟩
  · rw [fill_of_void hvoid]
    exact ⟨.refl _, .inr hvoid⟩

theorem Writable.grows_setRunnable (h : fs.Writable l) (runnable : Bool) :
    Grows (· = l) fs (fs.setRunnable l runnable) := by
  rcases h with ⟨old, was, hfile⟩ | hvoid
  · simp only [setRunnable, hfile]
    exact .single (.refill hfile) rfl
  · simp only [setRunnable, hvoid]
    exact .refl _

/-- Where a file is to be created there is afterwards something to put bytes into. -/
theorem writable_of_create {created : FileSystem} (hfs : fs.WellFormed)
    (h : fs.create p = .ok (l, created)) :
    Grows (· = l) fs created ∧ created.Writable l ∧
      ∃ e, created.resolve .created p = .ok (.found l e) := by
  unfold create at h
  split at h
  · cases h
  · rename_i l e hfolder hfound
    cases h
    refine ⟨.refl _, ?_, e, hfound⟩
    have hget := get?_of_resolve hfound
    cases e with
    | folder => exact absurd rfl hfolder
    | link t => exact absurd rfl (ne_link_of_resolve hfs (by simp) hfound t)
    | void => exact .inr hget
    | file old was => exact .inl ⟨old, was, hget⟩
  · rename_i l hmissing
    cases h
    have hfree := free_of_resolve hmissing
    have htouch : fs.Touch l (.file .empty false) := .file hfree
    have hget : (fs.put l (.file .empty false)).get? l = some (.file .empty false) := by
      rw [get?_put _ htouch.ne_nil, if_pos rfl]
    rw [fill_of_none hfree.1]
    exact ⟨.single htouch rfl, .inl ⟨_, _, hget⟩, _, htouch.keeps.resolve_created hmissing hget⟩
  · cases h

/-- What was written is found where it was written. -/
theorem grows_of_write (hfs : fs.WellFormed) (h : fs.write p bytes = .ok after) :
    ∃ l, Grows (· = l) fs after ∧
      (after.resolve .created p = .ok (.found l .void) ∨
        ∃ runnable, after.resolve .created p = .ok (.found l (.file bytes runnable))) := by
  unfold write at h
  cases hcreate : fs.create p with
  | error err =>
      rw [hcreate] at h
      cases h
  | ok found =>
      obtain ⟨l, created⟩ := found
      rw [hcreate] at h
      simp only [Except.map, Except.ok.injEq] at h
      subst h
      obtain ⟨hgrows, hwritable, e, hfound⟩ := writable_of_create hfs hcreate
      obtain ⟨hfill, -⟩ := hwritable.fill bytes
      refine ⟨l, hgrows.trans hfill, ?_⟩
      obtain ⟨e', he', -⟩ := hfill.keeps.resolve hfound
      have hget := get?_of_resolve he'
      rcases hwritable with ⟨old, was, hfile⟩ | hvoid
      · refine .inr ⟨was, ?_⟩
        rw [fill_of_file hfile] at he' hget ⊢
        rw [(get?_refill hfile bytes was).2] at hget
        cases hget
        exact he'
      · refine .inl ?_
        rw [fill_of_void hvoid] at he' hget ⊢
        rw [hvoid] at hget
        cases hget
        exact he'

/-- What was written is what the file holds, unless it was lost on the null device. -/
theorem stat_of_write (hfs : fs.WellFormed) (h : fs.write p bytes = .ok after) :
    (∃ l runnable, after.stat p = .ok (l, .file bytes runnable)) ∨
      ∃ l, after.stat p = .ok (l, .void) := by
  obtain ⟨l, -, hvoid | ⟨runnable, hfound⟩⟩ := grows_of_write hfs h
  · exact .inr ⟨l, stat_of_resolve hvoid (by rintro target ⟨⟩)⟩
  · exact .inl ⟨l, runnable, stat_of_resolve hfound (by rintro target ⟨⟩)⟩

theorem not_void_of_isFile (h : fs.isFile p) : fs.stat p ≠ .ok (l, .void) := by
  obtain ⟨k, old, was, hstat⟩ := isFile_iff.mp h
  rw [hstat]
  simp

theorem fromUTF8?_eq_some_iff {text : String} :
    String.fromUTF8? bytes = some text ↔ bytes = text.toUTF8 := by
  unfold String.fromUTF8?
  constructor
  · intro h
    split at h
    · cases h
      rfl
    · cases h
  · rintro rfl
    have hvalid : text.toUTF8.IsValidUTF8 := text.isValidUTF8
    rw [dif_pos hvalid]
    rfl

theorem readText_or_void_of_write {text : String} (hfs : fs.WellFormed)
    (h : fs.write p text.toUTF8 = .ok after) :
    after.readText p = .ok text ∨ ∃ l, after.stat p = .ok (l, .void) := by
  refine (stat_of_write hfs h).imp_left ?_
  rintro ⟨l, runnable, hstat⟩
  have htext : String.fromUTF8? text.toUTF8 = some text := fromUTF8?_eq_some_iff.mpr rfl
  rw [readText, read, hstat]
  simp only [htext]

theorem readText_of_write {text : String} (hfs : fs.WellFormed)
    (h : fs.write p text.toUTF8 = .ok after) (hfile : after.isFile p) :
    after.readText p = .ok text := by
  rcases readText_or_void_of_write hfs h with hread | ⟨l, hvoid⟩
  · exact hread
  · exact absurd hvoid (not_void_of_isFile hfile)

/-- Copying a file touches only the place that the path of the copy leads to. -/
theorem grows_of_copyFile (hfs : fs.WellFormed) (h : fs.copyFile source target = .ok after) :
    ∃ l e, Grows (· = l) fs after ∧ after.stat target = .ok (l, e) := by
  unfold copyFile at h
  obtain ⟨⟨place, e⟩, -, h⟩ := except_bind_eq_ok_iff.mp h
  obtain ⟨old, -, h⟩ := except_bind_eq_ok_iff.mp h
  obtain ⟨⟨copy, created⟩, hcreate, h⟩ := except_bind_eq_ok_iff.mp h
  obtain ⟨bytes, -, h⟩ := except_bind_eq_ok_iff.mp h
  cases h
  obtain ⟨hgrows, hwritable, e, hfound⟩ := writable_of_create hfs hcreate
  obtain ⟨hgrows₁, hwritable₁⟩ := hwritable.fill .empty
  obtain ⟨hgrows₂, hwritable₂⟩ := hwritable₁.fill bytes
  have hrest := (hgrows₁.trans hgrows₂).trans
    (hwritable₂.grows_setRunnable (fs.isRunnable place))
  have hall := hgrows.trans hrest
  obtain ⟨e', hfound', -⟩ := hrest.keeps.resolve hfound
  exact ⟨copy, e', hall,
    stat_of_resolve hfound' (ne_link_of_resolve (hall.wellFormed hfs) (by decide) hfound')⟩

theorem write_of_found (hfs : fs.WellFormed)
    (h : fs.resolve .created p = .ok (.found l .void) ∨
      ∃ runnable, fs.resolve .created p = .ok (.found l (.file bytes runnable))) :
    fs.write p bytes = .ok fs := by
  rcases h with h | ⟨runnable, h⟩
  · simp [write, create, h, Except.map, fill_of_void (get?_of_resolve h)]
  · have hget := get?_of_resolve h
    have htouch : fs.Touch l (.file bytes runnable) := .refill hget
    have hl := htouch.ne_nil
    simp [write, create, h, Except.map, fill_of_file hget, hfs.put_self hl hget]

theorem append_of_file {old : ByteArray} (h : fs.stat p = .ok (l, .file old runnable)) :
    fs.append p bytes = .ok (fs.put l (.file (old ++ bytes) runnable)) := by
  simp [append, h, fill_of_file (get?_of_resolve (stat_eq_ok_iff.mp h))]

theorem create_of_resolve
    (h : fs.resolve .created p = .ok (.missing l) ∨
      ∃ old was, fs.resolve .created p = .ok (.found l (.file old was))) :
    ∃ created old was, fs.create p = .ok (l, created) ∧ Grows (· = l) fs created ∧
      created.get? l = some (.file old was) := by
  rcases h with h | ⟨old, was, h⟩
  · have hfree := free_of_resolve h
    have htouch : fs.Touch l (.file .empty false) := .file hfree
    refine ⟨fs.put l (.file .empty false), .empty, false, ?_, .single htouch rfl, ?_⟩
    · simp [create, h, fill_of_none hfree.1]
    · rw [get?_put _ htouch.ne_nil, if_pos rfl]
  · exact ⟨fs, old, was, by simp [create, h], .refl _, get?_of_resolve h⟩

theorem read_of_file (h : fs.stat p = .ok (l, .file bytes runnable)) : fs.read p = .ok bytes := by
  simp [read, h]

/-- A file of one folder is copied to its name in another one, where there is nothing or a file. -/
theorem copyFile_join (hpath : fs.stat path = .ok (place, .folder))
    (htarget : fs.stat target = .ok (dest, .folder)) (hne : place ≠ dest) (hname : IsName name)
    (hsource : checkPath (path.join ⟨name⟩) = .ok ())
    (hcopy : checkPath (target.join ⟨name⟩) = .ok ())
    (hget : fs.get? (name :: place) = some (.file bytes runnable))
    (hdest : fs.get? (name :: dest) = none ∨
      ∃ old was, fs.get? (name :: dest) = some (.file old was)) :
    ∃ after, fs.copyFile (path.join ⟨name⟩) (target.join ⟨name⟩) = .ok after ∧
      Grows (· = name :: dest) fs after ∧
      after.get? (name :: dest) = some (.file bytes runnable) := by
  have hstat : ∀ {fs' : FileSystem}, Grows (· = name :: dest) fs fs' →
      fs'.stat (path.join ⟨name⟩) = .ok (name :: place, .file bytes runnable) := by
    intro fs' hgrows
    refine stat_join (hgrows.keeps.stat_folder hpath) hname hsource ?_ (by rintro t ⟨⟩)
    rwa [hgrows.get?_eq (by simpa using hne)]
  obtain ⟨created, old, was, hcreate, hgrows, hcreated⟩ :
      ∃ created old was, fs.create (target.join ⟨name⟩) = .ok (name :: dest, created) ∧
        Grows (· = name :: dest) fs created ∧
        created.get? (name :: dest) = some (.file old was) := by
    rcases hdest with hnone | ⟨old, was, hfile⟩
    · exact create_of_resolve (.inl (resolve_join_missing htarget hname hcopy hnone))
    · exact create_of_resolve
        (.inr ⟨old, was, resolve_join_found htarget hname hcopy hfile (by rintro t ⟨⟩)⟩)
  obtain ⟨htouch₁, hemptied⟩ := get?_refill hcreated .empty was
  obtain ⟨htouch₂, hfilled⟩ := get?_refill hemptied bytes was
  obtain ⟨htouch₃, hset⟩ := get?_refill hfilled bytes runnable
  have hgrows₁ := hgrows.step htouch₁ rfl
  refine ⟨_, ?_, (hgrows₁.step htouch₂ rfl).step htouch₃ rfl, hset⟩
  have hrunnable : fs.isRunnable (name :: place) = runnable := by simp [isRunnable, hget]
  simp only [copyFile, hstat (.refl fs), read_of_file (hstat (.refl fs)), hcreate,
    fill_of_file hcreated, read_of_file (hstat hgrows₁), fill_of_file hemptied, setRunnable,
    hfilled, hrunnable, bind, Except.bind, pure, Except.pure]

end FileSystem

end Docset
