import Docset.Proofs.Files.Inside

/-!
# Where operations write

An operation that fails half-way has changed something already. What can be said of it in
any case is where it writes: at places where nothing was, and at those that its target paths
lead to. The paths themselves may depend on the tree, as those of a copy do, which has a
target for each file that it comes across.
-/
namespace Docset

open FileSystem

variable {fs mid after : FileSystem} {paths paths' : FileSystem → Path → Prop}
  {place dest l : Location} {e e' : Entry} {name : String} {path source target : Path}
  {count depth : Nat} {ε α β : Type}

namespace FileSystem

/-- One of the paths leads to a place. -/
def Aimed (paths : FileSystem → Path → Prop) (fs : FileSystem) (l : Location) : Prop :=
  ∃ p e, paths fs p ∧ fs.stat p = .ok (l, e)

/-- What is written to is new, or one of the paths leads to it afterwards. -/
def WritesTo (paths : FileSystem → Path → Prop) (fs after : FileSystem) : Prop :=
  Grows (fun l => fs.get? l = none ∨ Aimed paths after l) fs after

/-- What is a target stays one. -/
def Stable (paths : FileSystem → Path → Prop) : Prop :=
  ∀ fs after p, Keeps fs after → paths fs p → paths after p

theorem Aimed.keeps (hpaths : Stable paths) (k : Keeps fs after) (h : Aimed paths fs l) :
    Aimed paths after l := by
  obtain ⟨p, e, hp, hstat⟩ := h
  obtain ⟨e', he', -⟩ := k.lookUp hstat
  exact ⟨p, e', hpaths _ _ _ k hp, he'⟩

theorem WritesTo.refl (fs : FileSystem) : WritesTo paths fs fs := Grows.refl fs

theorem WritesTo.keeps (h : WritesTo paths fs after) : Keeps fs after := Grows.keeps h

theorem WritesTo.trans (hpaths : Stable paths) (h : WritesTo paths fs mid)
    (h' : WritesTo paths mid after) : WritesTo paths fs after := by
  refine Grows.trans (Grows.mono h ?_) (Grows.mono h' ?_)
  · rintro l (hnone | haimed)
    · exact .inl hnone
    · exact .inr (haimed.keeps hpaths h'.keeps)
  · rintro l (hnone | haimed)
    · exact .inl (h.keeps.get?_eq_none hnone)
    · exact .inr haimed

theorem WritesTo.mono (h : WritesTo paths fs after) (hpaths : ∀ p, paths after p → paths' after p) :
    WritesTo paths' fs after := by
  refine Grows.mono h fun l hl => hl.imp_right ?_
  rintro ⟨p, e, hp, hstat⟩
  exact ⟨p, e, hpaths p hp, hstat⟩

theorem WritesTo.bind {act : FileAction ε α} {next : α → FileAction ε β} (hpaths : Stable paths)
    (h : WritesTo paths fs (act.left fs))
    (hnext : ∀ a, act fs = .ok a (act.left fs) →
      WritesTo paths (act.left fs) ((next a).left (act.left fs))) :
    WritesTo paths fs ((act >>= next).left fs) := by
  rcases act.left_bind next with hleft | ⟨a, ha, hleft⟩
  · rw [hleft]
    exact h
  · rw [hleft]
    exact h.trans hpaths (hnext a ha)

end FileSystem

/-! ## Folders -/

theorem grows_of_makeAll_error {ps : List Path} {err : IoError}
    (h : makeAll ps fs = .error err after) : Grows (fun l => fs.get? l = none) fs after := by
  induction ps generalizing fs after with
  | nil =>
      cases h
      exact .refl _
  | cons p around ih =>
      unfold makeAll at h
      split at h
      · cases h
      split at h
      · cases h
      · split at h
        · rename_i hmid
          cases h
          exact ih hmid
        rename_i mid hmid
        -- The folders around were made, and only the folder itself was not.
        split at h
        · cases h
        · split at h
          · cases h
          · cases h
            exact (grows_of_makeAll hmid).1
      · split at h
        · cases h
        · cases h
          exact .refl _

theorem writesTo_makeFolders (p : Path) : WritesTo paths fs ((makeFolders p).left fs) := by
  have hgrows : Grows (fun l => fs.get? l = none) fs ((makeFolders p).left fs) := by
    unfold FileAction.left
    cases hmake : makeFolders p fs with
    | ok u after => exact (grows_of_makeFolders hmake).1
    | error err after => exact grows_of_makeAll_error hmake
  exact hgrows.mono fun l => .inl

/-! ## Copies -/

/-- The targets of a copy: one path for each file of the source. -/
def CopyTargets (place : Location) (target : Path) (fs : FileSystem) (p : Path) : Prop :=
  ∃ names bytes runnable, fs.get? (names.reverse ++ place) = some (.file bytes runnable) ∧
    p = target.below names

theorem stable_copyTargets : Stable (CopyTargets place target) := by
  rintro fs after p k ⟨names, bytes, runnable, hget, rfl⟩
  obtain ⟨e', he', halike⟩ := k.get? hget
  obtain ⟨bytes', runnable', rfl⟩ := halike.exists_file
  exact ⟨names, bytes', runnable', he', rfl⟩

theorem CopyTargets.of_cons {p : Path}
    (h : CopyTargets (name :: place) (target.join ⟨name⟩) fs p) :
    CopyTargets place target fs p := by
  obtain ⟨names, bytes, runnable, hget, rfl⟩ := h
  exact ⟨name :: names, bytes, runnable, by simpa using hget, (Path.below_cons ..).symm⟩

theorem writesTo_copyEntry
    (hbelow : ∀ path place target (fs : FileSystem), fs.WellFormed →
      WritesTo (CopyTargets place target) fs ((copyBelow depth path place target).left fs))
    (hfs : fs.WellFormed) (hget : fs.get? (name :: place) = some e') (halike : Entry.Alike e e') :
    WritesTo (CopyTargets place target) fs
      ((copyEntry depth path place target count (name, e)).left fs) := by
  unfold copyEntry
  cases e with
  | folder =>
      refine .bind stable_copyTargets (by simpa using writesTo_makeFolders _) fun _ _ => ?_
      refine .bind stable_copyTargets ?_ fun _ _ => .refl _
      have hmade : WritesTo (CopyTargets place target) fs
          ((makeFolders (target.join ⟨name⟩)).left fs) := writesTo_makeFolders _
      have hinner := hbelow (path.join ⟨name⟩) (name :: place) (target.join ⟨name⟩)
        _ (Grows.wellFormed hmade hfs)
      simpa using hinner.mono fun p => .of_cons
  | file bytes runnable =>
      refine .bind stable_copyTargets ?_ fun _ _ => .refl _
      rw [FileAction.left_mapError]
      rcases FileAction.left_change
        (·.copyFile (path.join ⟨name⟩) (target.join ⟨name⟩)) fs with hleft | hcopy
      · rw [hleft]
        exact .refl fs
      · obtain ⟨l, e, hgrows, hstat⟩ := grows_of_copyFile hfs hcopy
        obtain ⟨old, was, rfl⟩ := halike.exists_file
        obtain ⟨e'', hget', halike'⟩ := hgrows.keeps.get? hget
        obtain ⟨bytes', runnable', rfl⟩ := halike'.exists_file
        refine Grows.mono hgrows ?_
        rintro k rfl
        exact .inr ⟨_, e, ⟨[name], bytes', runnable', hget', rfl⟩, hstat⟩
  | link t => exact .refl fs
  | void => exact .refl fs

theorem writesTo_foldlM_copyEntry
    (hentry : ∀ (fs : FileSystem) count name e e', fs.WellFormed →
      fs.get? (name :: place) = some e' → Entry.Alike e e' →
      WritesTo (CopyTargets place target) fs
        ((copyEntry depth path place target count (name, e)).left fs))
    {cs : List (String × Entry)} (hfs : fs.WellFormed)
    (hcs : ∀ c ∈ cs, ∃ e, fs.get? (c.1 :: place) = some e ∧ Entry.Alike c.2 e) :
    WritesTo (CopyTargets place target) fs
      ((cs.foldlM (copyEntry depth path place target) count).left fs) := by
  induction cs generalizing fs count with
  | nil => exact .refl fs
  | cons c cs ih =>
      obtain ⟨name, e⟩ := c
      obtain ⟨e', hget, halike⟩ := hcs (name, e) (by simp)
      have hfirst := hentry fs count name e e' hfs hget halike
      rw [List.foldlM_cons]
      refine hfirst.bind stable_copyTargets fun n _ => ih (Grows.wellFormed hfirst hfs) ?_
      -- The entries that are still to come were read before the first one was copied.
      intro c hc
      obtain ⟨e, hget, halike⟩ := hcs c (List.mem_cons_of_mem _ hc)
      obtain ⟨e', hget', halike'⟩ := hfirst.keeps.get? hget
      exact ⟨e', hget', halike.trans halike'⟩

/-- A copy writes to its targets and where nothing was, however far it gets. -/
theorem writesTo_copyBelow (hfs : fs.WellFormed) :
    WritesTo (CopyTargets place target) fs ((copyBelow depth path place target).left fs) := by
  induction depth generalizing fs path place target with
  | zero => exact .refl fs
  | succ depth ih =>
      have hunfold : copyBelow (depth + 1) path place target = (do
          FileAction.inspect fun _ => (FileSystem.checkPath path).mapError (.source path)
          let children ← FileAction.inspect fun fs => .ok (fs.children place)
          children.foldlM (copyEntry depth path place target) 0) := rfl
      rw [hunfold]
      refine .bind stable_copyTargets (by simpa using .refl fs) fun _ _ => ?_
      rw [FileAction.left_inspect]
      refine .bind stable_copyTargets (by simpa using .refl fs) fun children hchildren => ?_
      obtain ⟨heq, -⟩ := FileAction.inspect_eq_ok_iff.mp hchildren
      cases heq
      rw [FileAction.left_inspect]
      refine writesTo_foldlM_copyEntry
        (fun _ _ _ _ _ => writesTo_copyEntry fun _ _ _ _ => ih) hfs fun c hc => ?_
      exact ⟨c.2, hfs.mem_children_iff.mp hc, .refl _⟩

theorem writesTo_copyTree (hfs : fs.WellFormed) (hstat : fs.stat source = .ok (place, .folder)) :
    WritesTo (CopyTargets place target) fs ((copyTree source target).left fs) := by
  obtain ⟨link, e, hlstat⟩ := lstat_of_stat hstat
  unfold copyTree
  refine .bind stable_copyTargets (by simpa using .refl fs) fun found hfound => ?_
  obtain ⟨heq, -⟩ := FileAction.inspect_eq_ok_iff.mp hfound
  rw [hlstat] at heq
  cases heq
  rw [FileAction.left_inspect]
  rcases folder_or_link hlstat hstat with ⟨rfl, rfl⟩ | ⟨t, rfl⟩
  · have hmade : WritesTo (CopyTargets link target) fs ((makeFolders (target.join ⟨""⟩)).left fs) :=
      writesTo_makeFolders _
    refine .bind stable_copyTargets (by simpa using hmade) fun _ _ => ?_
    rw [FileAction.left_mapError]
    exact writesTo_copyBelow (Grows.wellFormed hmade hfs)
  · refine .bind stable_copyTargets (by simpa using .refl fs) fun found hfound => ?_
    obtain ⟨heq, -⟩ := FileAction.inspect_eq_ok_iff.mp hfound
    rw [hstat] at heq
    cases heq
    rw [FileAction.left_inspect]
    exact writesTo_copyBelow hfs

end Docset
