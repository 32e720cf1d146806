import Docset.Proofs.Files.Action
import Docset.Proofs.Files.Writing
import Mathlib.Data.List.Infix

/-!
# Copies of trees

A tree is copied entry by entry into a folder that is apart from it and holds no links.
After a copy everything of the source that can be copied stands at its counterpart, and
nothing but counterparts was touched. A copy that succeeded succeeds again on what it left
behind, and makes no new entries then.
-/
namespace Docset

/-- Whether an entry has a counterpart in a copy. -/
def Entry.copied : Entry → Bool
  | .file _ _ => true
  | .folder => true
  | .link _ => false
  | .void => false

namespace FileSystem

variable {fs mid after again : FileSystem} {path target : Path} {place dest l : Location}
  {e : Entry} {name : String} {n : Nat} {P : Location → Prop}

/-- Two folders, and the paths that they are copied by: neither lies in the other, and the second
one holds only what a copy can hold. -/
structure Ready (fs : FileSystem) (path : Path) (place : Location) (target : Path)
    (dest : Location) : Prop where
  source : fs.stat path = .ok (place, .folder)
  target : fs.stat target = .ok (dest, .folder)
  apart : ¬ place <:+ dest ∧ ¬ dest <:+ place
  plain : ∀ names {e}, fs.get? (names ++ dest) = some e → e.copied

theorem copied_of_entries (h : ∀ p ∈ fs.entries, dest <:+ p.1 → p.2.copied) (names : List String)
    (hget : fs.get? (names ++ dest) = some e) : e.copied := by
  cases hl : names ++ dest with
  | nil =>
      rw [hl] at hget
      cases hget
      rfl
  | cons name around =>
      exact h _ (mem_of_get? hget (by simp [hl])) (List.suffix_append names dest)

/-- The places that stand for copied entries of a folder. -/
def Counterpart (fs : FileSystem) (place dest l : Location) : Prop :=
  ∃ names e, l = names ++ dest ∧ fs.get? (names ++ place) = some e ∧ e.copied

/-- Every entry that can be copied stands at its counterpart. -/
def Copied (fs after : FileSystem) (place dest : Location) : Prop :=
  ∀ names {e}, fs.get? (names ++ place) = some e → e.copied → after.get? (names ++ dest) = some e

theorem Grows.copied (h : Grows P fs after) (hget : after.get? l = some e) :
    fs.get? l = some e ∨ e.copied := by
  induction h with
  | refl => exact .inl hget
  | @step mid k e' _ htouch _ ih =>
      rw [get?_put _ htouch.ne_nil] at hget
      split at hget
      · cases hget
        cases htouch with
        | folder => exact .inr rfl
        | file => exact .inr rfl
        | refill => exact .inr rfl
      · exact ih hget

theorem Ready.grows (hr : Ready fs path place target dest) (h : Grows P fs after) :
    Ready after path place target dest where
  source := h.keeps.stat_folder hr.source
  target := h.keeps.stat_folder hr.target
  apart := hr.apart
  plain names e hget := by
    rcases h.copied hget with hold | hcopied
    · exact hr.plain names hold
    · exact hcopied

theorem not_both (apart : ¬ place <:+ dest ∧ ¬ dest <:+ place) (hplace : place <:+ l)
    (hdest : dest <:+ l) : False := by
  rcases List.suffix_or_suffix_of_suffix hplace hdest with h | h
  · exact apart.1 h
  · exact apart.2 h

theorem Ready.apart_cons (hr : Ready fs path place target dest) :
    ¬ name :: place <:+ name :: dest ∧ ¬ name :: dest <:+ name :: place := by
  constructor
  · intro h
    exact not_both hr.apart ((List.suffix_cons name place).trans h) (List.suffix_cons name dest)
  · intro h
    exact not_both hr.apart (List.suffix_cons name place) ((List.suffix_cons name dest).trans h)

def SameBelow (place : Location) (fs after : FileSystem) : Prop :=
  ∀ l, place <:+ l → after.get? l = fs.get? l ∧ after.children l = fs.children l

theorem SameBelow.trans (h : SameBelow place fs mid) (h' : SameBelow place mid after) :
    SameBelow place fs after := fun l hl =>
  ⟨(h' l hl).1.trans (h l hl).1, (h' l hl).2.trans (h l hl).2⟩

theorem SameBelow.symm (h : SameBelow place fs after) : SameBelow place after fs := fun l hl =>
  ⟨(h l hl).1.symm, (h l hl).2.symm⟩

theorem SameBelow.below (h : SameBelow place fs after) (hl : place <:+ l) :
    SameBelow l fs after := fun k hk => h k (hl.trans hk)

theorem sameBelow_of_grows (apart : ¬ place <:+ dest ∧ ¬ dest <:+ place) (hfs : fs.WellFormed)
    (h : Grows (dest <:+ ·) fs after) : SameBelow place fs after := by
  intro l hl
  refine ⟨h.get?_eq fun hdest => not_both apart hl hdest, h.children_eq hfs fun name hdest => ?_⟩
  exact not_both apart (hl.trans (List.suffix_cons name l)) hdest

theorem Counterpart.suffix (h : Counterpart fs place dest l) : dest <:+ l := by
  obtain ⟨names, e, rfl, -⟩ := h
  exact List.suffix_append names dest

theorem Counterpart.of_sameBelow (hsame : SameBelow place fs after)
    (h : Counterpart after place dest l) : Counterpart fs place dest l := by
  obtain ⟨names, e, hl, hget, he⟩ := h
  exact ⟨names, e, hl, (hsame _ (List.suffix_append names place)).1 ▸ hget, he⟩

/-- Nothing lies below an entry that is no folder, so it is copied with its counterpart. -/
theorem Copied.of_not_folder (hfs : fs.WellFormed) (hget : fs.get? place = some e)
    (hne : e ≠ .folder) (htop : e.copied → after.get? dest = some e) :
    Copied fs after place dest := by
  intro names e' hget' he'
  cases names with
  | nil =>
      rw [List.nil_append, hget] at hget'
      cases hget'
      exact htop he'
  | cons inner names =>
      have hfolder := hfs.get?_append (inner :: names) (by simp) (by rw [hget']; rfl)
      rw [hget] at hfolder
      cases hfolder
      exact absurd rfl hne

theorem Copied.of_sameBelow (hsame : SameBelow place fs mid) (h : Copied mid after place dest) :
    Copied fs after place dest := fun names _ hget he =>
  h names ((hsame _ (List.suffix_append names place)).1.trans hget) he

end FileSystem

open FileSystem

variable {fs mid after again : FileSystem} {path target : Path} {place dest l : Location}
  {e : Entry} {name : String} {n count depth : Nat}

def copyEntry (depth : Nat) (path : Path) (place : Location) (target : Path) (count : Nat) :
    String × Entry → FileAction CopyError Nat
  | (name, entry) => do
      let inner := path.join ⟨name⟩
      let counterpart := target.join ⟨name⟩
      match entry with
      | .folder =>
          (makeFolders counterpart).mapError .target
          return count + (← copyBelow depth inner (name :: place) counterpart)
      | .file _ _ =>
          (FileAction.change (·.copyFile inner counterpart)).mapError .target
          return count + 1
      | _ => return count

theorem copyBelow_eq_ok_iff :
    copyBelow (depth + 1) path place target fs = .ok n after ↔
      checkPath path = .ok () ∧
        (fs.children place).foldlM (copyEntry depth path place target) 0 fs = .ok n after := by
  have hunfold : copyBelow (depth + 1) path place target = (do
      FileAction.inspect fun _ => (FileSystem.checkPath path).mapError (.source path)
      let children ← FileAction.inspect fun fs => .ok (fs.children place)
      children.foldlM (copyEntry depth path place target) 0) := rfl
  rw [hunfold, FileAction.bind_eq_ok_iff]
  constructor
  · rintro ⟨⟨⟩, fs₁, hcheck, h⟩
    obtain ⟨hpath, rfl⟩ := FileAction.inspect_eq_ok_iff.mp hcheck
    obtain ⟨children, fs₂, hchildren, hfold⟩ := FileAction.bind_eq_ok_iff.mp h
    obtain ⟨heq, rfl⟩ := FileAction.inspect_eq_ok_iff.mp hchildren
    cases heq
    refine ⟨?_, hfold⟩
    cases hok : checkPath path with
    | ok u => rfl
    | error e => rw [hok] at hpath; cases hpath
  · rintro ⟨hcheck, h⟩
    refine ⟨(), fs, FileAction.inspect_eq_ok_iff.mpr ⟨by rw [hcheck]; rfl, rfl⟩, ?_⟩
    exact FileAction.bind_eq_ok_iff.mpr
      ⟨_, fs, FileAction.inspect_eq_ok_iff.mpr ⟨rfl, rfl⟩, h⟩

theorem exists_depth_of_copyBelow (h : copyBelow depth path place target fs = .ok n after) :
    ∃ d, depth = d + 1 := by
  cases depth with
  | zero => cases h
  | succ d => exact ⟨d, rfl⟩

theorem checkPath_of_copyBelow (h : copyBelow depth path place target fs = .ok n after) :
    checkPath path = .ok () := by
  obtain ⟨d, rfl⟩ := exists_depth_of_copyBelow h
  exact (copyBelow_eq_ok_iff.mp h).1

theorem copyEntry_folder_eq_ok_iff :
    copyEntry depth path place target count (name, .folder) fs = .ok n after ↔
      ∃ u mid m, makeFolders (target.join ⟨name⟩) fs = .ok u mid ∧
        copyBelow depth (path.join ⟨name⟩) (name :: place) (target.join ⟨name⟩) mid = .ok m after ∧
        n = count + m := by
  unfold copyEntry
  simp only [FileAction.bind_eq_ok_iff, FileAction.mapError_eq_ok_iff, FileAction.pure_eq_ok_iff]
  constructor
  · rintro ⟨u, mid, hmade, m, mid', hcopy, rfl, rfl⟩
    exact ⟨u, mid, m, hmade, hcopy, rfl⟩
  · rintro ⟨u, mid, m, hmade, hcopy, rfl⟩
    exact ⟨u, mid, hmade, m, after, hcopy, rfl, rfl⟩

theorem copyEntry_file_eq_ok_iff {bytes : ByteArray} {runnable : Bool} :
    copyEntry depth path place target count (name, .file bytes runnable) fs = .ok n after ↔
      fs.copyFile (path.join ⟨name⟩) (target.join ⟨name⟩) = .ok after ∧ n = count + 1 := by
  unfold copyEntry
  simp only [FileAction.bind_eq_ok_iff, FileAction.mapError_eq_ok_iff,
    FileAction.change_eq_ok_iff, FileAction.pure_eq_ok_iff]
  constructor
  · rintro ⟨u, mid, hcopy, rfl, rfl⟩
    exact ⟨hcopy, rfl⟩
  · rintro ⟨hcopy, rfl⟩
    exact ⟨(), after, hcopy, rfl, rfl⟩

theorem copyEntry_of_not_copied (he : e.copied = false) :
    copyEntry depth path place target count (name, e) fs = .ok count fs := by
  cases e with
  | file bytes runnable => cases he
  | folder => cases he
  | link t => rfl
  | void => rfl

theorem grows_of_copyBelow (hfs : fs.WellFormed)
    (h : copyBelow depth path place target fs = .ok n after) :
    Grows (fun _ => True) fs after := by
  induction depth generalizing fs after path place target n with
  | zero => cases h
  | succ depth ih =>
      have hentry : ∀ {fs after : FileSystem} {count n : Nat} {c}, fs.WellFormed →
          copyEntry depth path place target count c fs = .ok n after →
          Grows (fun _ => True) fs after := by
        rintro fs after count n ⟨name, e⟩ hfs h
        cases e with
        | folder =>
            obtain ⟨u, mid, m, hmade, hcopy, -⟩ := copyEntry_folder_eq_ok_iff.mp h
            have hgrows : Grows (fun _ => True) fs mid :=
              (grows_of_makeFolders hmade).1.mono fun _ _ => trivial
            exact hgrows.trans (ih (hgrows.wellFormed hfs) hcopy)
        | file bytes runnable =>
            obtain ⟨l, -, hgrows, -⟩ := grows_of_copyFile hfs (copyEntry_file_eq_ok_iff.mp h).1
            exact hgrows.mono fun _ _ => trivial
        | link t =>
            rw [copyEntry_of_not_copied rfl] at h
            cases h
            exact .refl _
        | void =>
            rw [copyEntry_of_not_copied rfl] at h
            cases h
            exact .refl _
      have hfold := (copyBelow_eq_ok_iff.mp h).2
      generalize fs.children place = cs at hfold
      generalize 0 = count at hfold
      clear h
      induction cs generalizing fs count with
      | nil =>
          obtain ⟨-, rfl⟩ := FileAction.pure_eq_ok_iff.mp hfold
          exact .refl _
      | cons c cs ihcs =>
          rw [List.foldlM_cons] at hfold
          obtain ⟨m, mid, hfirst, hrest⟩ := FileAction.bind_eq_ok_iff.mp hfold
          have hgrows := hentry hfs hfirst
          exact hgrows.trans (ihcs (hgrows.wellFormed hfs) m hrest)

theorem FileSystem.Ready.cons (hr : Ready fs path place target dest) (hname : IsName name)
    (hsource : checkPath (path.join ⟨name⟩) = .ok ())
    (hcopy : checkPath (target.join ⟨name⟩) = .ok ())
    (hplace : fs.get? (name :: place) = some .folder)
    (hdest : fs.get? (name :: dest) = some .folder) :
    Ready fs (path.join ⟨name⟩) (name :: place) (target.join ⟨name⟩) (name :: dest) where
  source := stat_join hr.source hname hsource hplace (by rintro t ⟨⟩)
  target := stat_join hr.target hname hcopy hdest (by rintro t ⟨⟩)
  apart := hr.apart_cons
  plain names e hget := hr.plain (names ++ [name]) (by simpa using hget)

theorem FileSystem.Ready.ne_link (hr : Ready fs path place target dest) (t : String) :
    fs.get? (name :: dest) ≠ some (.link t) := fun hget => by
  have : Entry.copied (.link t) := hr.plain [name] hget
  cases this

/-- What copying a folder does: only counterparts are touched, and each of them is there. -/
structure FileSystem.Copies (fs after : FileSystem) (place dest : Location) : Prop where
  grows : Grows (Counterpart fs place dest) fs after
  copied : Copied fs after place dest

theorem ready_of_copyEntry_folder (hfs : fs.WellFormed) (hr : Ready fs path place target dest)
    (hget : fs.get? (name :: place) = some .folder)
    (h : copyEntry depth path place target count (name, .folder) fs = .ok n after) :
    ∃ mid m, makeFolders (target.join ⟨name⟩) fs = .ok () mid ∧
      copyBelow depth (path.join ⟨name⟩) (name :: place) (target.join ⟨name⟩) mid = .ok m after ∧
      n = count + m ∧ Grows (· = name :: dest) fs mid ∧
      Ready mid (path.join ⟨name⟩) (name :: place) (target.join ⟨name⟩) (name :: dest) := by
  obtain ⟨⟨⟩, mid, m, hmade, hcopy, hn⟩ := copyEntry_folder_eq_ok_iff.mp h
  have hname : IsName name := (hfs.placed_of_get? (by simp) hget).1
  obtain ⟨hcheck, hgrows, hdest⟩ := makeFolders_join hr.target hname hr.ne_link hmade
  exact ⟨mid, m, hmade, hcopy, hn, hgrows,
    (hr.grows hgrows).cons hname (checkPath_of_copyBelow hcopy) hcheck
      (hgrows.keeps.folder hget) hdest⟩

theorem FileSystem.Ready.sameBelow_cons (hr : Ready fs path place target dest)
    (hfs : fs.WellFormed) {P : Location → Prop} (h : Grows P fs after)
    (hP : ∀ l, P l → name :: dest <:+ l) : SameBelow place fs after :=
  sameBelow_of_grows hr.apart hfs (h.mono fun l hl => (List.suffix_cons name dest).trans (hP l hl))

/-- What must hold for a file to be copied into a folder, read off its being copied. -/
theorem checks_of_copyFile (hname : IsName name) (hr : Ready fs path place target dest)
    (h : fs.copyFile (path.join ⟨name⟩) (target.join ⟨name⟩) = .ok after) :
    checkPath (path.join ⟨name⟩) = .ok () ∧ checkPath (target.join ⟨name⟩) = .ok () ∧
      (fs.get? (name :: dest) = none ∨
        ∃ old was, fs.get? (name :: dest) = some (.file old was)) := by
  unfold copyFile at h
  obtain ⟨⟨l, e⟩, hstat, h⟩ := except_bind_eq_ok_iff.mp h
  obtain ⟨bytes, -, h⟩ := except_bind_eq_ok_iff.mp h
  obtain ⟨⟨copy, created⟩, hcreate, -⟩ := except_bind_eq_ok_iff.mp h
  obtain ⟨hsource, -⟩ := resolve_eq_ok_iff.mp (stat_eq_ok_iff.mp hstat)
  have hcopy : checkPath (target.join ⟨name⟩) = .ok () := by
    unfold create at hcreate
    split at hcreate
    · cases hcreate
    · rename_i hfound
      exact (resolve_eq_ok_iff.mp hfound).1
    · rename_i hmissing
      exact (resolve_eq_ok_iff.mp hmissing).1
    · cases hcreate
  refine ⟨hsource, hcopy, ?_⟩
  cases hget : fs.get? (name :: dest) with
  | none => exact .inl rfl
  | some e =>
      refine .inr ?_
      have hcopied : e.copied := hr.plain [name] hget
      cases e with
      | file old was => exact ⟨old, was, rfl⟩
      | folder =>
          rw [create, resolve_join_found hr.target hname hcopy hget (by rintro t ⟨⟩)] at hcreate
          cases hcreate
      | link t => cases hcopied
      | void => cases hcopied

theorem copies_of_copyEntry
    (hbelow : ∀ {path place target dest} {fs after : FileSystem} {n}, fs.WellFormed →
      Ready fs path place target dest →
      copyBelow depth path place target fs = .ok n after → Copies fs after place dest)
    (hfs : fs.WellFormed) (hr : Ready fs path place target dest)
    (hget : fs.get? (name :: place) = some e)
    (h : copyEntry depth path place target count (name, e) fs = .ok n after) :
    Copies fs after (name :: place) (name :: dest) := by
  have hname : IsName name := (hfs.placed_of_get? (by simp) hget).1
  cases he : e.copied with
  | false =>
      rw [copyEntry_of_not_copied he] at h
      cases h
      have hne : e ≠ .folder := by
        rintro rfl
        cases he
      exact ⟨.refl _, .of_not_folder hfs hget hne (by simp [he])⟩
  | true =>
      have htop : ∀ l, l = name :: dest → Counterpart fs (name :: place) (name :: dest) l :=
        fun l hl => ⟨[], e, hl, hget, he⟩
      cases e with
      | link t => cases he
      | void => cases he
      | folder =>
          obtain ⟨mid, m, hmade, hcopy, rfl, hgrows, hready⟩ :=
            ready_of_copyEntry_folder hfs hr hget h
          have hsame : SameBelow (name :: place) fs mid :=
            (hr.sameBelow_cons hfs hgrows (by rintro l rfl; exact List.suffix_refl _)).below
              (List.suffix_cons name place)
          obtain ⟨hgrows', hcopied⟩ := hbelow (hgrows.wellFormed hfs) hready hcopy
          exact ⟨(hgrows.mono htop).trans (hgrows'.mono fun l => .of_sameBelow hsame),
            Copied.of_sameBelow hsame hcopied⟩
      | file bytes runnable =>
          obtain ⟨hcopy, -⟩ := copyEntry_file_eq_ok_iff.mp h
          obtain ⟨hsource, htarget, hdest⟩ := checks_of_copyFile hname hr hcopy
          have hne : place ≠ dest := fun heq => hr.apart.1 (heq ▸ List.suffix_refl _)
          obtain ⟨after', hafter, hgrows, hnew⟩ :=
            copyFile_join hr.source hr.target hne hname hsource htarget hget hdest
          rw [hcopy] at hafter
          cases hafter
          exact ⟨hgrows.mono htop, .of_not_folder hfs hget (by rintro ⟨⟩) fun _ => hnew⟩

theorem FileSystem.Counterpart.name_eq {name' : String} {names : List String}
    (h : Counterpart fs (name' :: place) (name' :: dest) (names ++ name :: dest)) :
    name' = name := by
  obtain ⟨names', e, heq, -⟩ := h
  have : (names ++ [name]) ++ dest = (names' ++ [name']) ++ dest := by simpa using heq
  have := congrArg List.getLast? (List.append_cancel_right this)
  simpa using this.symm

/-- What copying some entries of a folder does, one after the other. -/
theorem copies_of_foldlM
    (hentry : ∀ {fs after : FileSystem} {count n : Nat} {name e}, fs.WellFormed →
      Ready fs path place target dest → fs.get? (name :: place) = some e →
      copyEntry depth path place target count (name, e) fs = .ok n after →
      Copies fs after (name :: place) (name :: dest))
    {cs : List (String × Entry)} (hfs : fs.WellFormed) (hr : Ready fs path place target dest)
    (hnodup : (cs.map (·.1)).Nodup) (hcs : ∀ c ∈ cs, fs.get? (c.1 :: place) = some c.2)
    (h : cs.foldlM (copyEntry depth path place target) count fs = .ok n after) :
    Grows (fun l => ∃ c ∈ cs, Counterpart fs (c.1 :: place) (c.1 :: dest) l) fs after ∧
      ∀ c ∈ cs, Copied fs after (c.1 :: place) (c.1 :: dest) := by
  induction cs generalizing fs count with
  | nil =>
      obtain ⟨-, rfl⟩ := FileAction.pure_eq_ok_iff.mp h
      exact ⟨.refl _, by simp⟩
  | cons c cs ih =>
      obtain ⟨name, e⟩ := c
      rw [List.foldlM_cons] at h
      obtain ⟨m, mid, hfirst, hrest⟩ := FileAction.bind_eq_ok_iff.mp h
      obtain ⟨hgrows, hcopied⟩ := hentry hfs hr (hcs (name, e) (by simp)) hfirst
      rw [List.map_cons, List.nodup_cons] at hnodup
      have hsame : SameBelow place fs mid :=
        hr.sameBelow_cons hfs hgrows fun l hl => hl.suffix
      have hbelow : ∀ {name'}, SameBelow (name' :: place) fs mid := fun {name'} =>
        hsame.below (List.suffix_cons name' place)
      obtain ⟨hgrows', hcopied'⟩ := ih (hgrows.wellFormed hfs) (hr.grows hgrows) hnodup.2
        (fun c hc => by
          rw [(hsame _ (List.suffix_cons c.1 place)).1]
          exact hcs c (List.mem_cons_of_mem _ hc)) hrest
      refine ⟨(hgrows.mono fun l hl => ⟨(name, e), by simp, hl⟩).trans
        (hgrows'.mono ?_), fun c hc => ?_⟩
      · rintro l ⟨c, hc, hl⟩
        exact ⟨c, List.mem_cons_of_mem _ hc, hl.of_sameBelow hbelow⟩
      · rcases List.mem_cons.mp hc with rfl | hc
        · -- The other entries do not touch the counterpart of the first one.
          intro names e' hget he'
          rw [hgrows'.get?_eq]
          · exact hcopied names hget he'
          · rintro ⟨c, hc, hl⟩
            exact hnodup.1 (hl.name_eq ▸ List.mem_map_of_mem hc)
        · exact Copied.of_sameBelow hbelow (hcopied' c hc)

/-- A copy that succeeds touches counterparts only, and all of them are there. -/
theorem copies_of_copyBelow (hfs : fs.WellFormed) (hr : Ready fs path place target dest)
    (h : copyBelow depth path place target fs = .ok n after) : Copies fs after place dest := by
  induction depth generalizing fs after path place target dest n with
  | zero => cases h
  | succ depth ih =>
      obtain ⟨-, hfold⟩ := copyBelow_eq_ok_iff.mp h
      obtain ⟨hgrows, hcopied⟩ := copies_of_foldlM (copies_of_copyEntry ih) hfs hr
        (hfs.nodup_children place) (fun c hc => hfs.mem_children_iff.mp hc) hfold
      refine ⟨hgrows.mono ?_, ?_⟩
      · rintro l ⟨c, -, names, e, rfl, hget, he⟩
        exact ⟨names ++ [c.1], e, by simp, by simpa using hget, he⟩
      · intro names e hget he
        rcases List.eq_nil_or_concat names with rfl | ⟨inits, name, rfl⟩
        · have hplace := get?_of_resolve (stat_eq_ok_iff.mp hr.source)
          rw [List.nil_append, hplace] at hget
          cases hget
          exact hgrows.keeps.folder (get?_of_resolve (stat_eq_ok_iff.mp hr.target))
        · simp only [List.concat_eq_append, List.append_assoc, List.singleton_append] at hget ⊢
          obtain ⟨e', hname⟩ := hfs.exists_of_append hget
          exact hcopied (name, e') (hfs.mem_children_iff.mpr hname) inits hget he

/-- A tree in which a copy from `fs` to `after` is made once more: everything that the copy left
behind is there, and the source is as it was. -/
structure FileSystem.Repeats (fs after again : FileSystem) (place : Location) : Prop where
  wellFormed : again.WellFormed
  keeps : Keeps after again
  same : SameBelow place fs again

/-- The action succeeds with the given number of files, and makes no new entries. -/
def FileSystem.Refills (fs : FileSystem) (action : FileAction CopyError Nat) (n : Nat) : Prop :=
  ∃ final, action fs = .ok n final ∧ final.entries.map (·.1) = fs.entries.map (·.1)

theorem copyEntry_again
    (hbelow : ∀ {path place target dest} {fs after again : FileSystem} {n}, fs.WellFormed →
      Ready fs path place target dest → Ready again path place target dest →
      Repeats fs after again place →
      copyBelow depth path place target fs = .ok n after →
      again.Refills (copyBelow depth path place target) n)
    (hfs : fs.WellFormed) (hr : Ready fs path place target dest)
    (hready : Ready again path place target dest) (ha : Repeats fs after again place)
    (hget : fs.get? (name :: place) = some e)
    (h : copyEntry depth path place target count (name, e) fs = .ok n after) :
    again.Refills (copyEntry depth path place target count (name, e)) n := by
  have hname : IsName name := (hfs.placed_of_get? (by simp) hget).1
  have hcopies := copies_of_copyEntry copies_of_copyBelow hfs hr hget h
  cases he : e.copied with
  | false =>
      rw [copyEntry_of_not_copied he] at h
      cases h
      exact ⟨again, copyEntry_of_not_copied he, rfl⟩
  | true =>
      -- The counterpart is there since the first copy.
      have hcopied : after.get? (name :: dest) = some e := hcopies.copied [] hget he
      obtain ⟨e', hdest, halike⟩ := ha.keeps.get? hcopied
      have hplace : again.get? (name :: place) = some e :=
        (ha.same _ (List.suffix_cons name place)).1.trans hget
      cases e with
      | link t => cases he
      | void => cases he
      | folder =>
          cases halike
          obtain ⟨mid, m, hmade, hcopy, rfl, hgrows, hreadyMid⟩ :=
            ready_of_copyEntry_folder hfs hr hget h
          obtain ⟨hcheck, -⟩ := makeFolders_join hr.target hname hr.ne_link hmade
          have hinner := hready.cons hname (checkPath_of_copyBelow hcopy) hcheck hplace hdest
          have hmid : SameBelow place fs mid :=
            hr.sameBelow_cons hfs hgrows (by rintro l rfl; exact List.suffix_refl _)
          have hsame : SameBelow (name :: place) mid again :=
            (hmid.symm.trans ha.same).below (List.suffix_cons name place)
          obtain ⟨final, hfinal, hkeys⟩ := hbelow (hgrows.wellFormed hfs) hreadyMid hinner
            ⟨ha.wellFormed, ha.keeps, hsame⟩ hcopy
          refine ⟨final, copyEntry_folder_eq_ok_iff.mpr ⟨(), again, m, ?_, hfinal, rfl⟩, hkeys⟩
          exact makeFolders_of_isFolder (.inr (isFolder_iff.mpr ⟨_, hinner.target⟩))
      | file bytes runnable =>
          obtain ⟨hcopy, rfl⟩ := copyEntry_file_eq_ok_iff.mp h
          obtain ⟨hsource, htarget, -⟩ := checks_of_copyFile hname hr hcopy
          have hne : place ≠ dest := fun heq => hr.apart.1 (heq ▸ List.suffix_refl _)
          obtain ⟨old, was, rfl⟩ := halike.exists_file
          obtain ⟨final, hfinal, hgrows, -⟩ := copyFile_join hready.source hready.target hne hname
            hsource htarget hplace (.inr ⟨old, was, hdest⟩)
          refine ⟨final, copyEntry_file_eq_ok_iff.mpr ⟨hfinal, rfl⟩, hgrows.keys_eq ?_⟩
          rintro l rfl
          rw [hdest]
          rfl

theorem foldlM_copyEntry_again
    (hbelow : ∀ {path place target dest} {fs after again : FileSystem} {n}, fs.WellFormed →
      Ready fs path place target dest → Ready again path place target dest →
      Repeats fs after again place →
      copyBelow depth path place target fs = .ok n after →
      again.Refills (copyBelow depth path place target) n)
    {cs : List (String × Entry)} (hfs : fs.WellFormed) (hr : Ready fs path place target dest)
    (hready : Ready again path place target dest) (ha : Repeats fs after again place)
    (hnodup : (cs.map (·.1)).Nodup) (hcs : ∀ c ∈ cs, fs.get? (c.1 :: place) = some c.2)
    (h : cs.foldlM (copyEntry depth path place target) count fs = .ok n after) :
    again.Refills (cs.foldlM (copyEntry depth path place target) count) n := by
  induction cs generalizing fs again count with
  | nil =>
      obtain ⟨rfl, -⟩ := FileAction.pure_eq_ok_iff.mp h
      exact ⟨again, rfl, rfl⟩
  | cons c cs ih =>
      obtain ⟨name, e⟩ := c
      rw [List.foldlM_cons] at h
      obtain ⟨m, mid, hfirst, hrest⟩ := FileAction.bind_eq_ok_iff.mp h
      rw [List.map_cons, List.nodup_cons] at hnodup
      have hget := hcs (name, e) (by simp)
      obtain ⟨hgrows, -⟩ := copies_of_copyEntry copies_of_copyBelow hfs hr hget hfirst
      have hmid : SameBelow place fs mid := hr.sameBelow_cons hfs hgrows fun l hl => hl.suffix
      have hcs' : ∀ c ∈ cs, mid.get? (c.1 :: place) = some c.2 := fun c hc => by
        rw [(hmid _ (List.suffix_cons c.1 place)).1]
        exact hcs c (List.mem_cons_of_mem _ hc)
      obtain ⟨hgrows', -⟩ := copies_of_foldlM (copies_of_copyEntry copies_of_copyBelow)
        (hgrows.wellFormed hfs) (hr.grows hgrows) hnodup.2 hcs' hrest
      obtain ⟨again', hfirst', hkeys⟩ := copyEntry_again hbelow hfs hr hready
        ⟨ha.wellFormed, hgrows'.keeps.trans ha.keeps, ha.same⟩ hget hfirst
      have hplace : again.get? (name :: place) = some e :=
        (ha.same _ (List.suffix_cons name place)).1.trans hget
      obtain ⟨hgrows₂, -⟩ :=
        copies_of_copyEntry copies_of_copyBelow ha.wellFormed hready hplace hfirst'
      have hagain : SameBelow place again again' :=
        hready.sameBelow_cons ha.wellFormed hgrows₂ fun l hl => hl.suffix
      obtain ⟨final, hfinal, hkeys'⟩ := ih (hgrows.wellFormed hfs) (hr.grows hgrows)
        (hready.grows hgrows₂)
        ⟨hgrows₂.wellFormed ha.wellFormed, ha.keeps.trans hgrows₂.keeps,
          hmid.symm.trans (ha.same.trans hagain)⟩
        hnodup.2 hcs' hrest
      refine ⟨final, ?_, hkeys'.trans hkeys⟩
      rw [List.foldlM_cons]
      exact FileAction.bind_eq_ok_iff.mpr ⟨m, again', hfirst', hfinal⟩

/-- A copy that succeeded succeeds again, and makes no new entries then. -/
theorem copyBelow_again (hfs : fs.WellFormed) (hr : Ready fs path place target dest)
    (hready : Ready again path place target dest) (ha : Repeats fs after again place)
    (h : copyBelow depth path place target fs = .ok n after) :
    again.Refills (copyBelow depth path place target) n := by
  induction depth generalizing fs after again path place target dest n with
  | zero => cases h
  | succ depth ih =>
      obtain ⟨hcheck, hfold⟩ := copyBelow_eq_ok_iff.mp h
      obtain ⟨final, hfinal, hkeys⟩ := foldlM_copyEntry_again ih hfs hr hready ha
        (hfs.nodup_children place) (fun c hc => hfs.mem_children_iff.mp hc) hfold
      refine ⟨final, copyBelow_eq_ok_iff.mpr ⟨hcheck, ?_⟩, hkeys⟩
      rwa [(ha.same _ (List.suffix_refl place)).2]

/-! ## Whole trees -/

theorem copyTree_of_folder (h : fs.lstat path = .ok (place, .folder)) :
    copyTree path target fs = .ok n after ↔
      ∃ mid, makeFolders (target.join ⟨""⟩) fs = .ok () mid ∧
        copyBelow 4096 path place target mid = .ok n after := by
  unfold copyTree
  rw [FileAction.bind_eq_ok_iff]
  constructor
  · rintro ⟨found, fs₁, hinspect, hrest⟩
    obtain ⟨hfound, rfl⟩ := FileAction.inspect_eq_ok_iff.mp hinspect
    rw [h] at hfound
    cases hfound
    obtain ⟨⟨⟩, mid, hmade, hcopy⟩ := FileAction.bind_eq_ok_iff.mp hrest
    exact ⟨mid, FileAction.mapError_eq_ok_iff.mp hmade, hcopy⟩
  · rintro ⟨mid, hmade, hcopy⟩
    refine ⟨(place, .folder), fs, FileAction.inspect_eq_ok_iff.mpr ⟨by rw [h]; rfl, rfl⟩, ?_⟩
    exact FileAction.bind_eq_ok_iff.mpr
      ⟨(), mid, FileAction.mapError_eq_ok_iff.mpr hmade, hcopy⟩

theorem copyTree_of_link {link : Location} {t : String} (h : fs.lstat path = .ok (link, .link t))
    (hstat : fs.stat path = .ok (place, .folder)) :
    copyTree path target fs = .ok n after ↔ copyBelow 4096 path place target fs = .ok n after := by
  unfold copyTree
  rw [FileAction.bind_eq_ok_iff]
  constructor
  · rintro ⟨found, fs₁, hinspect, hrest⟩
    obtain ⟨hfound, rfl⟩ := FileAction.inspect_eq_ok_iff.mp hinspect
    rw [h] at hfound
    cases hfound
    obtain ⟨found, fs₁, hinspect', hcopy⟩ := FileAction.bind_eq_ok_iff.mp hrest
    obtain ⟨hfound, rfl⟩ := FileAction.inspect_eq_ok_iff.mp hinspect'
    rw [hstat] at hfound
    cases hfound
    exact hcopy
  · intro hcopy
    refine ⟨(link, .link t), fs, FileAction.inspect_eq_ok_iff.mpr ⟨by rw [h]; rfl, rfl⟩, ?_⟩
    exact FileAction.bind_eq_ok_iff.mpr
      ⟨(place, .folder), fs, FileAction.inspect_eq_ok_iff.mpr ⟨by rw [hstat]; rfl, rfl⟩, hcopy⟩

theorem Entry.Alike.copied_eq {a b : Entry} (h : Alike a b) : a.copied = b.copied := by
  cases h with
  | refl => rfl
  | file => rfl

/-- The two folders of a copy are ready for it before, if they are so in what became of the tree
later. -/
theorem FileSystem.Ready.of_keeps (k : Keeps fs after) (hr : Ready after path place target dest)
    {place' dest' : Location} (hsource : fs.stat path = .ok (place', .folder))
    (htarget : fs.stat target = .ok (dest', .folder)) : Ready fs path place target dest where
  source := by
    have := k.stat_folder hsource
    rw [hr.source] at this
    cases this
    exact hsource
  target := by
    have := k.stat_folder htarget
    rw [hr.target] at this
    cases this
    exact htarget
  apart := hr.apart
  plain names e hget := by
    obtain ⟨e', he', halike⟩ := k.get? hget
    rw [halike.copied_eq]
    exact hr.plain names he'

/-- How a copy of a tree begins: with the folder to copy to, which is made unless the tree is
reached by a link. -/
theorem ready_of_copyTree {link : Location} (hfs : fs.WellFormed) (htext : target.text ≠ "")
    (hlstat : fs.lstat path = .ok (link, e)) (hstat : fs.stat path = .ok (place, .folder))
    (hlink : e ≠ .folder → fs.isFolder target)
    (h : copyTree path target fs = .ok n mid) (k : Keeps mid after)
    (hready : Ready after path place target dest) :
    ∃ start, Grows (fun l => fs.get? l = none) fs start ∧
      (e = .folder → start.isFolder (target.join ⟨""⟩)) ∧
      Ready start path place target dest ∧
      copyBelow 4096 path place target start = .ok n mid := by
  rcases folder_or_link hlstat hstat with ⟨rfl, rfl⟩ | ⟨t, rfl⟩
  · obtain ⟨start, hmade, hcopy⟩ := (copyTree_of_folder hlstat).mp h
    obtain ⟨hgrows, hslash⟩ := grows_of_makeFolders hmade
    have hstart := hgrows.wellFormed hfs
    have hslash : start.isFolder (target.join ⟨""⟩) :=
      hslash.resolve_left (Path.text_join_empty_ne htext)
    obtain ⟨l, hl⟩ := isFolder_iff.mp hslash
    have k' := (grows_of_copyBelow hstart hcopy).keeps.trans k
    exact ⟨start, hgrows, fun _ => hslash,
      .of_keeps k' hready (hgrows.keeps.stat_folder hstat) (stat_of_stat_slash htext hl), hcopy⟩
  · obtain ⟨l, hl⟩ := isFolder_iff.mp (hlink (by rintro ⟨⟩))
    have hcopy := (copyTree_of_link hlstat hstat).mp h
    have k' := (grows_of_copyBelow hfs hcopy).keeps.trans k
    exact ⟨fs, .refl _, by rintro ⟨⟩, .of_keeps k' hready hstat hl, hcopy⟩

theorem copyTree_of_ready {link : Location} (hr : Ready fs path place target dest)
    (hlstat : fs.lstat path = .ok (link, e))
    (hslash : e = .folder → fs.isFolder (target.join ⟨""⟩))
    (h : copyBelow 4096 path place target fs = .ok n after) :
    copyTree path target fs = .ok n after := by
  rcases folder_or_link hlstat hr.source with ⟨rfl, rfl⟩ | ⟨t, rfl⟩
  · exact (copyTree_of_folder hlstat).mpr
      ⟨fs, makeFolders_of_isFolder (.inr (hslash rfl)), h⟩
  · exact (copyTree_of_link hlstat hr.source).mpr h

theorem grows_of_copyTree (hfs : fs.WellFormed) (h : copyTree path target fs = .ok n after) :
    Grows (fun _ => True) fs after := by
  unfold copyTree at h
  obtain ⟨⟨place, e⟩, fs₁, hinspect, h⟩ := FileAction.bind_eq_ok_iff.mp h
  obtain ⟨-, rfl⟩ := FileAction.inspect_eq_ok_iff.mp hinspect
  cases e with
  | folder =>
      obtain ⟨⟨⟩, start, hmade, hcopy⟩ := FileAction.bind_eq_ok_iff.mp h
      have hgrows : Grows (fun _ => True) fs start :=
        (grows_of_makeFolders (FileAction.mapError_eq_ok_iff.mp hmade)).1.mono fun _ _ => trivial
      exact hgrows.trans (grows_of_copyBelow (hgrows.wellFormed hfs) hcopy)
  | link t =>
      obtain ⟨⟨place', e'⟩, fs₂, hinspect', h⟩ := FileAction.bind_eq_ok_iff.mp h
      obtain ⟨-, rfl⟩ := FileAction.inspect_eq_ok_iff.mp hinspect'
      cases e' with
      | folder => exact grows_of_copyBelow hfs h
      | link t' =>
          obtain ⟨-, rfl⟩ := FileAction.pure_eq_ok_iff.mp h
          exact .refl _
      | file bytes runnable =>
          obtain ⟨-, rfl⟩ := FileAction.pure_eq_ok_iff.mp h
          exact .refl _
      | void =>
          obtain ⟨-, rfl⟩ := FileAction.pure_eq_ok_iff.mp h
          exact .refl _
  | file bytes runnable =>
      obtain ⟨u, mid, hchange, h⟩ := FileAction.bind_eq_ok_iff.mp h
      obtain ⟨-, rfl⟩ := FileAction.pure_eq_ok_iff.mp h
      obtain ⟨l, -, hgrows, -⟩ := grows_of_copyFile hfs
        (FileAction.change_eq_ok_iff.mp (FileAction.mapError_eq_ok_iff.mp hchange))
      exact hgrows.mono fun _ _ => trivial
  | void =>
      obtain ⟨-, rfl⟩ := FileAction.pure_eq_ok_iff.mp h
      exact .refl _

/-- A tree that was copied is copied again to the same effect: nothing but counterparts has been
touched since, so all that the second copy does is to put them back. -/
theorem copyTree_again {link : Location} (hfs : fs.WellFormed) (htext : target.text ≠ "")
    (hlstat : fs.lstat path = .ok (link, e)) (hstat : fs.stat path = .ok (place, .folder))
    (hlink : e ≠ .folder → fs.isFolder target)
    (h : copyTree path target fs = .ok n mid)
    (hgrows : Grows (Counterpart mid place dest) mid after)
    (hready : Ready after path place target dest) :
    copyTree path target after = .ok n mid := by
  obtain ⟨start, hstart, hslash, hr, hcopy⟩ :=
    ready_of_copyTree hfs htext hlstat hstat hlink h hgrows.keeps hready
  have hwf := hstart.wellFormed hfs
  obtain ⟨hfirst, hcopied⟩ := copies_of_copyBelow hwf hr hcopy
  have hmid := hfirst.wellFormed hwf
  have hafter := hgrows.wellFormed hmid
  have hsame : SameBelow place start mid :=
    sameBelow_of_grows hr.apart hwf (hfirst.mono fun l hl => hl.suffix)
  have hgrows' : Grows (Counterpart start place dest) mid after :=
    hgrows.mono fun l => .of_sameBelow hsame
  have hall := hfirst.trans hgrows'
  have hsame' : SameBelow place start after :=
    sameBelow_of_grows hr.apart hwf (hall.mono fun l hl => hl.suffix)
  obtain ⟨final, hfinal, hkeys⟩ :=
    copyBelow_again hwf hr hready ⟨hafter, hgrows'.keeps, hsame'⟩ hcopy
  obtain ⟨hsecond, hcopied'⟩ := copies_of_copyBelow hafter hready hfinal
  have hsecond' : Grows (Counterpart start place dest) after final :=
    hsecond.mono fun l => .of_sameBelow hsame'
  -- Counterparts stand in the copy both times, everything else was never touched.
  have heq : final = mid := by
    refine (hsecond'.wellFormed hafter).ext hmid ?_ ?_ ?_
    · exact hsecond'.keeps.here.trans hgrows'.keeps.here
    · refine hkeys.trans (hgrows'.keys_eq ?_)
      rintro l ⟨names, e, rfl, hget, he⟩
      rw [hcopied names hget he]
      rfl
    · intro l
      by_cases hl : Counterpart start place dest l
      · obtain ⟨names, e, rfl, hget, he⟩ := hl
        rw [hcopied names hget he]
        exact hcopied' names ((hsame' _ (List.suffix_append names place)).1.trans hget) he
      · rw [hsecond'.get?_eq hl, hgrows'.get?_eq hl]
  obtain ⟨e', hlstat', halike⟩ := (hstart.keeps.trans hall.keeps).lookUp hlstat
  refine copyTree_of_ready hready hlstat' ?_ (heq ▸ hfinal)
  rintro rfl
  cases halike
  exact hall.keeps.isFolder (hslash rfl)

/-- A copy changes nothing that was there but counterparts. -/
theorem get?_of_copyTree {link : Location} {x : Entry} (hfs : fs.WellFormed)
    (htext : target.text ≠ "")
    (hlstat : fs.lstat path = .ok (link, e)) (hstat : fs.stat path = .ok (place, .folder))
    (hlink : e ≠ .folder → fs.isFolder target)
    (h : copyTree path target fs = .ok n mid) (k : Keeps mid after)
    (hready : Ready after path place target dest) (hget : fs.get? l = some x)
    (hl : ¬ Counterpart mid place dest l) : mid.get? l = some x := by
  obtain ⟨start, hstart, -, hr, hcopy⟩ :=
    ready_of_copyTree hfs htext hlstat hstat hlink h k hready
  have hwf := hstart.wellFormed hfs
  obtain ⟨hgrows, -⟩ := copies_of_copyBelow hwf hr hcopy
  have hsame : SameBelow place start mid :=
    sameBelow_of_grows hr.apart hwf (hgrows.mono fun l hl => hl.suffix)
  rw [hgrows.get?_eq fun hc => hl (hc.of_sameBelow hsame.symm),
    hstart.get?_eq (by simp [hget]), hget]

end Docset
