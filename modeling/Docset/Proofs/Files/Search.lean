import Docset.Proofs.Files.Writing
import Mathlib.Data.List.Infix
import Mathlib.Data.List.Perm.Subperm

/-!
# What a search finds

A search looks at the files whose names, from the starting folder on, are all admitted. It
depends on nothing else: if a tree grows, and no file that is looked at is new or changed,
the same files are found, in the same order, and they can be read as before. Files whose
contents do not count may come and change; what is said of the others is the same. How deep
the search is allowed to go makes no difference, since no place is deeper than there are
entries.
-/
namespace Docset

open FileSystem

variable {fs after : FileSystem} {f : FileFilter} {path root p : Path} {place l : Location}
  {e : Entry} {name : String} {depth : Nat} {bytes : ByteArray} {runnable : Bool}
  {silent : ByteArray → Bool} {P : Location → Prop}

/-- Whether a search that starts at `place` looks at a file at `l`. -/
def FileFilter.LooksAt (f : FileFilter) (place l : Location) : Prop :=
  (place <:+ l ∧ ∀ name ∈ l.take (l.length - place.length), f.admits name) ∧
    (l = place ∨ l.head?.any f.keepsName)

instance (f : FileFilter) (place l : Location) : Decidable (f.LooksAt place l) :=
  inferInstanceAs (Decidable ((_ ∧ _) ∧ _))

theorem FileFilter.looksAt_self (f : FileFilter) (place : Location) : f.LooksAt place place :=
  ⟨⟨List.suffix_refl _, by simp⟩, .inl rfl⟩

theorem FileFilter.looksAt_cons (hadmits : f.admits name) (hkeeps : f.keepsName name) :
    f.LooksAt place (name :: place) := by
  refine ⟨⟨List.suffix_cons name place, ?_⟩, .inr (by simpa using hkeeps)⟩
  have : (name :: place).length - place.length = 1 := by simp
  rw [this]
  simpa using hadmits

theorem FileFilter.LooksAt.of_cons (hadmits : f.admits name) (h : f.LooksAt (name :: place) l)
    (hne : l ≠ name :: place) : f.LooksAt place l := by
  obtain ⟨⟨⟨names, rfl⟩, hall⟩, hend⟩ := h
  refine ⟨⟨(List.suffix_cons name place).trans (List.suffix_append _ _), ?_⟩,
    .inr (hend.resolve_left hne)⟩
  have hlong : (names ++ name :: place).length - place.length = (names ++ [name]).length := by
    simp
    omega
  have hshort : (names ++ name :: place).length - (name :: place).length = names.length := by
    simp
  rw [hshort, List.take_left' rfl] at hall
  have happend : names ++ name :: place = (names ++ [name]) ++ place := by simp
  rw [hlong, happend, List.take_left' rfl]
  intro n hn
  rcases List.mem_append.mp hn with hn | hn
  · exact hall n hn
  · rw [List.mem_singleton.mp hn]
    exact hadmits

/-- No file that a search from `place` looks at is new or changed, apart from files whose contents
do not count. -/
def FileFilter.Unmoved (f : FileFilter) (silent : ByteArray → Bool) (place : Location)
    (fs after : FileSystem) : Prop :=
  ∀ l {bytes runnable}, f.LooksAt place l → after.get? l = some (.file bytes runnable) →
    fs.get? l = some (.file bytes runnable) ∨
      silent bytes ∧ ∀ old was, fs.get? l = some (.file old was) → silent old

theorem FileFilter.Unmoved.cons (h : f.Unmoved silent place fs after) (hadmits : f.admits name)
    (hfolder : after.get? (name :: place) = some .folder) :
    f.Unmoved silent (name :: place) fs after := by
  intro l bytes runnable hl hget
  by_cases heq : l = name :: place
  · rw [heq, hfolder] at hget
    cases hget
  · exact h l (hl.of_cons hadmits heq) hget

/-- The contents of a file that was there are as before, or do not count and did not count
before. -/
theorem FileFilter.Unmoved.contents {old : ByteArray} {was : Bool}
    (h : f.Unmoved silent place fs after) (hl : f.LooksAt place l)
    (hold : fs.get? l = some (.file old was)) (hnew : after.get? l = some (.file bytes runnable)) :
    old = bytes ∨ silent bytes ∧ silent old := by
  rcases h l hl hnew with hsame | ⟨hsilent, hsilent'⟩
  · rw [hold] at hsame
    cases hsame
    exact .inl rfl
  · exact .inr ⟨hsilent, hsilent' old was hold⟩

def FileSystem.unmovedAt (fs : FileSystem) (silent : ByteArray → Bool) (l : Location) :
    Entry → Bool
  | .file bytes runnable =>
      fs.get? l = some (.file bytes runnable) ||
        silent bytes && match fs.get? l with
          | some (.file old _) => silent old
          | _ => true
  | _ => true

theorem FileFilter.unmoved_of_entries
    (h : ∀ p ∈ after.entries, f.LooksAt place p.1 → fs.unmovedAt silent p.1 p.2) :
    f.Unmoved silent place fs after := by
  intro l bytes runnable hl hget
  have hat := h (l, _) (mem_of_get? hget (by rintro rfl; cases hget)) hl
  simp only [FileSystem.unmovedAt, Bool.or_eq_true, decide_eq_true_eq, Bool.and_eq_true] at hat
  refine hat.imp_right fun hsilent => ⟨hsilent.1, fun old was hold => ?_⟩
  simpa [hold] using hsilent.2

theorem checkPath_isNone_iff : (checkPath p).toOption.isNone ↔ checkPath p ≠ .ok () := by
  cases h : checkPath p with
  | ok u => simp [Except.toOption]
  | error e => simp [Except.toOption]

/-- What one name of a folder adds to what a search finds. -/
def FileSystem.foundAt (fs : FileSystem) (f : FileFilter) (depth : Nat) (path : Path)
    (place : Location) (name : String) : List Path :=
  match fs.get? (name :: place) with
  | none => []
  | some entry =>
      if f.admits name then
        match entry with
        | .folder => fs.filesBelow f depth (path.join ⟨name⟩) (name :: place)
        | _ => if f.keeps (path.join ⟨name⟩) name entry then [path.join ⟨name⟩] else []
      else []

theorem FileSystem.WellFormed.filesBelow_eq (hfs : fs.WellFormed) :
    fs.filesBelow f (depth + 1) path place =
      if (checkPath path).toOption.isNone then []
      else (fs.names place).flatMap (fs.foundAt f depth path place) := by
  unfold FileSystem.filesBelow
  split
  · rfl
  · rw [hfs.children_eq]
    generalize fs.names place = names
    induction names with
    | nil => rfl
    | cons name names ih =>
        rw [List.flatMap_cons, ← ih]
        cases hget : fs.get? (name :: place) with
        | none => simp [hget, foundAt]
        | some e =>
            cases e with
            | file bytes runnable => simp [hget, foundAt]
            | folder => simp [hget, foundAt]
            | link target => simp [hget, foundAt]
            | void => simp [hget, foundAt]

theorem FileSystem.foundAt_of_none (h : fs.get? (name :: place) = none) :
    fs.foundAt f depth path place name = [] := by
  simp [foundAt, h]

theorem FileSystem.foundAt_of_not_admits (h : ¬ f.admits name) :
    fs.foundAt f depth path place name = [] := by
  unfold foundAt
  split
  · rfl
  · rw [if_neg h]

theorem FileSystem.foundAt_of_folder (hadmits : f.admits name)
    (h : fs.get? (name :: place) = some .folder) :
    fs.foundAt f depth path place name =
      fs.filesBelow f depth (path.join ⟨name⟩) (name :: place) := by
  simp [foundAt, h, hadmits]

theorem FileSystem.foundAt_of_not_folder (hadmits : f.admits name)
    (h : fs.get? (name :: place) = some e) (he : e ≠ .folder) :
    fs.foundAt f depth path place name =
      if f.keeps (path.join ⟨name⟩) name e then [path.join ⟨name⟩] else [] := by
  cases e with
  | folder => exact absurd rfl he
  | file bytes runnable => simp [foundAt, h, hadmits]
  | link target => simp [foundAt, h, hadmits]
  | void => simp [foundAt, h, hadmits]

theorem FileFilter.exists_file_of_keeps (h : f.keeps p name e) :
    f.keepsName name ∧ ∃ bytes runnable, e = .file bytes runnable := by
  cases e with
  | file bytes runnable =>
      simp only [FileFilter.keeps, Bool.and_eq_true] at h
      exact ⟨h.1, bytes, runnable, rfl⟩
  | folder => cases h
  | link target => cases h
  | void => cases h

theorem FileSystem.WellFormed.length_le (hfs : fs.WellFormed) (h : fs.get? l = some e) :
    l.length ≤ fs.entries.length := by
  have hkeys : ∀ i < l.length, l.drop i ∈ fs.entries.map (·.1) := by
    intro i hi
    have hne : l.drop i ≠ [] := by simpa using hi
    rw [← get?_isSome_iff_mem hne]
    cases i with
    | zero => simp [h]
    | succ i =>
        have hsplit : l.take (i + 1) ++ l.drop (i + 1) = l := List.take_append_drop ..
        have htake : l.take (i + 1) ≠ [] := by
          intro hnil
          simp [List.take_eq_nil_iff] at hnil
          simp [hnil] at hi
        have hfolder : fs.get? (l.drop (i + 1)) = some .folder :=
          hfs.get?_append _ htake (by rw [hsplit, h]; rfl)
        simp [hfolder]
  have hnodup : ((List.range l.length).map l.drop).Nodup := by
    refine List.Nodup.map_on ?_ List.nodup_range
    intro i hi j hj heq
    have := congrArg List.length heq
    simp only [List.mem_range, List.length_drop] at hi hj this
    omega
  have hsub : (List.range l.length).map l.drop ⊆ fs.entries.map (·.1) := by
    intro k hk
    obtain ⟨i, hi, rfl⟩ := List.mem_map.mp hk
    exact hkeys i (List.mem_range.mp hi)
  simpa using (List.subperm_of_subset hnodup hsub).length_le

theorem FileSystem.WellFormed.filesBelow_depth (hfs : fs.WellFormed) {depth' : Nat}
    (h : fs.entries.length < depth + place.length)
    (h' : fs.entries.length < depth' + place.length) :
    fs.filesBelow f depth path place = fs.filesBelow f depth' path place := by
  have hnames : ∀ {place}, fs.entries.length < Nat.succ (List.length place) →
      fs.names place = [] := by
    intro place hlong
    refine List.eq_nil_iff_forall_not_mem.mpr fun name hname => ?_
    obtain ⟨e, he⟩ := Option.isSome_iff_exists.mp (mem_names_iff.mp hname)
    have := hfs.length_le he
    simp only [List.length_cons] at this
    omega
  have hnil : ∀ {depth place} {path : Path}, fs.names place = [] →
      fs.filesBelow f depth path place = [] := by
    intro depth place path hnames
    cases depth with
    | zero => rfl
    | succ depth => simp [hfs.filesBelow_eq, hnames]
  induction depth generalizing depth' path place with
  | zero => rw [hnil (hnames (by omega)), hnil (hnames (by omega))]
  | succ depth ih =>
      cases depth' with
      | zero => rw [hnil (hnames (by omega)), hnil (hnames (by omega))]
      | succ depth' =>
          rw [hfs.filesBelow_eq, hfs.filesBelow_eq]
          have hname : fs.foundAt f depth path place = fs.foundAt f depth' path place := by
            funext name
            have hinner : fs.filesBelow f depth (path.join ⟨name⟩) (name :: place) =
                fs.filesBelow f depth' (path.join ⟨name⟩) (name :: place) :=
              ih (by rw [List.length_cons]; omega) (by rw [List.length_cons]; omega)
            unfold foundAt
            rw [hinner]
          rw [hname]

/-! ## Files that count -/

/-- A path leads to a folder, unless it is too long to be used. -/
def FileSystem.Leads (fs : FileSystem) (path : Path) (place : Location) : Prop :=
  checkPath path = .ok () → fs.stat path = .ok (place, .folder)

theorem FileSystem.Leads.cons (h : fs.Leads path place) (hfs : fs.WellFormed)
    (hcheck : checkPath path = .ok ()) (hget : fs.get? (name :: place) = some .folder) :
    fs.Leads (path.join ⟨name⟩) (name :: place) := fun hinner =>
  stat_join (h hcheck) (hfs.placed_of_get? (by simp) hget).1 hinner hget (by rintro t ⟨⟩)

/-- A path that was found leads to a file that is looked at, unless it is too long to be used. -/
theorem FileSystem.WellFormed.stat_of_mem_filesBelow (hfs : fs.WellFormed)
    (hpath : fs.Leads path place) (h : p ∈ fs.filesBelow f depth path place) :
    checkPath p ≠ .ok () ∨
      ∃ l bytes runnable, f.LooksAt place l ∧ fs.stat p = .ok (l, .file bytes runnable) := by
  induction depth generalizing path place with
  | zero => cases h
  | succ depth ih =>
      rw [hfs.filesBelow_eq] at h
      split at h
      · cases h
      rename_i hshort
      have hcheck : checkPath path = .ok () := by rwa [checkPath_isNone_iff, not_not] at hshort
      obtain ⟨name, hname, h⟩ := List.mem_flatMap.mp h
      obtain ⟨e, hget⟩ := Option.isSome_iff_exists.mp (mem_names_iff.mp hname)
      by_cases hadmits : f.admits name
      swap
      · rw [foundAt_of_not_admits hadmits] at h
        cases h
      by_cases hfolder : e = .folder
      · subst hfolder
        rw [foundAt_of_folder hadmits hget] at h
        refine (ih (hpath.cons hfs hcheck hget) h).imp_right ?_
        rintro ⟨l, bytes, runnable, hl, hstat⟩
        refine ⟨l, bytes, runnable, hl.of_cons hadmits ?_, hstat⟩
        rintro rfl
        have hfile := get?_of_resolve (stat_eq_ok_iff.mp hstat)
        rw [hget] at hfile
        cases hfile
      · rw [foundAt_of_not_folder hadmits hget hfolder] at h
        split at h
        swap
        · cases h
        rename_i hkeeps
        obtain ⟨hkeepsName, bytes, runnable, rfl⟩ := FileFilter.exists_file_of_keeps hkeeps
        rw [List.mem_singleton.mp h]
        by_cases hinner : checkPath (path.join ⟨name⟩) = .ok ()
        · exact .inr ⟨_, bytes, runnable, FileFilter.looksAt_cons hadmits hkeepsName,
            stat_join (hpath hcheck) (hfs.placed_of_get? (by simp) hget).1 hinner hget
              (by rintro t ⟨⟩)⟩
        · exact .inl hinner

theorem FileSystem.read_of_checkPath {err : IoError} (h : checkPath p = .error err) :
    fs.read p = .error err := by
  have hstat : fs.stat p = .error err := by simp [stat, lookUp, resolve, h, bind, Except.bind]
  simp [read, hstat]

/-- Whether a path leads to a file whose contents count. -/
def FileSystem.heard (fs : FileSystem) (silent : ByteArray → Bool) (p : Path) : Bool :=
  match fs.read p with
  | .ok bytes => !silent bytes
  | .error _ => false

theorem FileSystem.heard_of_file (h : fs.stat p = .ok (l, .file bytes runnable)) :
    fs.heard silent p = !silent bytes := by
  simp [heard, read_of_file h]

theorem FileSystem.heard_of_checkPath (h : checkPath p ≠ .ok ()) : fs.heard silent p = false := by
  cases hcheck : checkPath p with
  | ok u => exact absurd hcheck h
  | error err => simp [heard, read_of_checkPath hcheck]

theorem FileSystem.WellFormed.heard_join (hfs : fs.WellFormed)
    (hpath : fs.stat path = .ok (place, .folder))
    (hget : fs.get? (name :: place) = some (.file bytes runnable)) :
    fs.heard silent (path.join ⟨name⟩) =
      (decide (checkPath (path.join ⟨name⟩) = .ok ()) && !silent bytes) := by
  by_cases hcheck : checkPath (path.join ⟨name⟩) = .ok ()
  · rw [heard_of_file (stat_join hpath (hfs.placed_of_get? (by simp) hget).1 hcheck hget
      (by rintro t ⟨⟩))]
    simp [hcheck]
  · rw [heard_of_checkPath hcheck]
    simp [hcheck]

theorem FileFilter.filter_keeps_eq {old : ByteArray} {was : Bool} (usable : Bool)
    (hheard : fs.heard silent p = (usable && !silent old))
    (hheard' : after.heard silent p = (usable && !silent bytes))
    (hsame : old = bytes ∨ silent bytes ∧ silent old) :
    (if f.keeps p name (.file bytes runnable) then [p] else []).filter (after.heard silent) =
      (if f.keeps p name (.file old was) then [p] else []).filter (fs.heard silent) := by
  rcases hsame with rfl | ⟨hsilent, hsilent'⟩
  · have hkeeps : f.keeps p name (.file old runnable) = f.keeps p name (.file old was) := rfl
    rw [hkeeps]
    split
    · simp only [List.filter_cons, List.filter_nil, hheard, hheard']
    · rfl
  · have hnone : fs.heard silent p = false := by simp [hheard, hsilent']
    have hnone' : after.heard silent p = false := by simp [hheard', hsilent]
    split <;> split <;> simp [hnone, hnone']

/-- What counts of what a search finds at a name of a folder. -/
def FileSystem.heardAt (fs : FileSystem) (f : FileFilter) (silent : ByteArray → Bool)
    (depth : Nat) (path : Path) (place : Location) (name : String) : List Path :=
  (fs.foundAt f depth path place name).filter (fs.heard silent)

theorem FileSystem.WellFormed.filter_filesBelow_eq (hfs : fs.WellFormed)
    (hcheck : checkPath path = .ok ()) :
    (fs.filesBelow f (depth + 1) path place).filter (fs.heard silent) =
      (fs.names place).flatMap (fs.heardAt f silent depth path place) := by
  have hshort : ¬ (checkPath path).toOption.isNone := by rwa [checkPath_isNone_iff, not_not]
  rw [hfs.filesBelow_eq, if_neg hshort, List.filter_flatMap]
  rfl

theorem FileFilter.Unmoved.heardAt_eq_nil (hsame : f.Unmoved silent place fs after)
    (hfs : fs.WellFormed) (hafter : after.WellFormed) (hcheck : checkPath path = .ok ())
    (hpath : after.Leads path place) (hnew : fs.get? (name :: place) = none) :
    after.heardAt f silent depth path place name = [] := by
  unfold FileSystem.heardAt
  by_cases hadmits : f.admits name
  swap
  · rw [foundAt_of_not_admits hadmits, List.filter_nil]
  cases hget : after.get? (name :: place) with
  | none => rw [foundAt_of_none hget, List.filter_nil]
  | some e =>
      by_cases hfolder : e = .folder
      · subst hfolder
        rw [foundAt_of_folder hadmits hget]
        refine List.filter_eq_nil_iff.mpr fun p hp => ?_
        rcases hafter.stat_of_mem_filesBelow (hpath.cons hafter hcheck hget) hp with
          hlong | ⟨l, bytes, runnable, hl, hstat⟩
        · simp [heard_of_checkPath hlong]
        · -- There was nothing below the name, so the file is new as well.
          have hnone : fs.get? l = none := hfs.get?_eq_none_of_suffix hnew hl.1.1
          have hfile := get?_of_resolve (stat_eq_ok_iff.mp hstat)
          have hold := hsame.cons hadmits hget l hl hfile
          simp only [hnone, reduceCtorEq, false_or] at hold
          simp [heard_of_file hstat, hold.1]
      · rw [foundAt_of_not_folder hadmits hget hfolder]
        split
        swap
        · rfl
        rename_i hkeeps
        obtain ⟨hname, bytes, runnable, rfl⟩ := FileFilter.exists_file_of_keeps hkeeps
        have hold := hsame _ (FileFilter.looksAt_cons hadmits hname) hget
        simp only [hnew, reduceCtorEq, false_or] at hold
        simp [hafter.heard_join (hpath hcheck) hget, hold.1]

/-- The same counts at a name that was there, if the same counts below it. -/
theorem FileFilter.Unmoved.heardAt_eq (hsame : f.Unmoved silent place fs after)
    (hfs : fs.WellFormed) (hafter : after.WellFormed) (k : Keeps fs after)
    (hpath : fs.stat path = .ok (place, .folder)) (hget : fs.get? (name :: place) = some e)
    (hbelow : e = .folder → f.Unmoved silent (name :: place) fs after →
      (after.filesBelow f depth (path.join ⟨name⟩) (name :: place)).filter (after.heard silent) =
        (fs.filesBelow f depth (path.join ⟨name⟩) (name :: place)).filter (fs.heard silent)) :
    after.heardAt f silent depth path place name = fs.heardAt f silent depth path place name := by
  unfold FileSystem.heardAt
  by_cases hadmits : f.admits name
  swap
  · rw [foundAt_of_not_admits hadmits, foundAt_of_not_admits hadmits]
    rfl
  obtain ⟨e', hget', halike⟩ := k.get? hget
  cases e with
  | folder =>
      cases halike
      rw [foundAt_of_folder hadmits hget, foundAt_of_folder hadmits hget']
      exact hbelow rfl (hsame.cons hadmits hget')
  | link t =>
      cases halike
      rw [foundAt_of_not_folder hadmits hget (by rintro ⟨⟩),
        foundAt_of_not_folder hadmits hget' (by rintro ⟨⟩)]
      rfl
  | void =>
      cases halike
      rw [foundAt_of_not_folder hadmits hget (by rintro ⟨⟩),
        foundAt_of_not_folder hadmits hget' (by rintro ⟨⟩)]
      rfl
  | file bytes runnable =>
      obtain ⟨bytes', runnable', rfl⟩ := halike.exists_file
      rw [foundAt_of_not_folder hadmits hget (by rintro ⟨⟩),
        foundAt_of_not_folder hadmits hget' (by rintro ⟨⟩)]
      by_cases hkeeps : f.keepsName name
      · exact FileFilter.filter_keeps_eq _ (hfs.heard_join hpath hget)
          (hafter.heard_join (k.stat_folder hpath) hget')
          (hsame.contents (FileFilter.looksAt_cons hadmits hkeeps) hget hget')
      · simp [FileFilter.keeps, hkeeps]

/-- A search finds the same files that count, if it looks at the same ones. -/
theorem FileSystem.Grows.filter_filesBelow (h : Grows P fs after) (hfs : fs.WellFormed)
    (hpath : fs.Leads path place) (hsame : f.Unmoved silent place fs after) :
    (after.filesBelow f depth path place).filter (after.heard silent) =
      (fs.filesBelow f depth path place).filter (fs.heard silent) := by
  have hafter := h.wellFormed hfs
  induction depth generalizing path place with
  | zero => rfl
  | succ depth ih =>
      by_cases hcheck : checkPath path = .ok ()
      swap
      · simp [hfs.filesBelow_eq, hafter.filesBelow_eq, checkPath_isNone_iff.mpr hcheck]
      have hpath' : after.Leads path place := fun hcheck => h.keeps.stat_folder (hpath hcheck)
      have hnew : ∀ {name}, fs.get? (name :: place) = none →
          after.heardAt f silent depth path place name = [] :=
        hsame.heardAt_eq_nil hfs hafter hcheck hpath'
      have hname : ∀ name, after.heardAt f silent depth path place name =
          fs.heardAt f silent depth path place name := by
        intro name
        cases hget : fs.get? (name :: place) with
        | none => rw [hnew hget, heardAt, foundAt_of_none hget, List.filter_nil]
        | some e =>
            refine hsame.heardAt_eq hfs hafter h.keeps (hpath hcheck) hget ?_
            rintro rfl hbelow
            exact ih (hpath.cons hfs hcheck hget) hbelow
      obtain ⟨new, hnames, hall⟩ := h.names place
      have hnil : new.flatMap (after.heardAt f silent depth path place) = [] :=
        List.flatMap_eq_nil_iff.mpr fun name hmem => hnew (hall name hmem).2
      rw [hafter.filter_filesBelow_eq hcheck, hfs.filter_filesBelow_eq hcheck, hnames,
        List.flatMap_append, hnil, List.append_nil, funext hname]

/-! ## Searches from a path -/

theorem FileSystem.present_iff : fs.present p ↔ ∃ l e, fs.stat p = .ok (l, e) := by
  unfold present
  cases h : fs.stat p with
  | ok found => exact ⟨fun _ => ⟨found.1, found.2, rfl⟩, fun _ => rfl⟩
  | error e => simp [Except.isOk, Except.toBool]

/-- What a search from a path finds, before it is sorted. -/
inductive FileSystem.Finds (fs : FileSystem) (f : FileFilter) (root : Path) : List Path → Prop
  | folder {place : Location} : fs.stat root = .ok (place, .folder) →
      Finds fs f root (fs.filesBelow f (fs.entries.length + 1) root place)
  | file {place : Location} {bytes : ByteArray} {runnable : Bool} :
      fs.lstat root = .ok (place, .file bytes runnable) →
      Finds fs f root
        (if f.keeps root (root.fileName?.getD root.text) (.file bytes runnable) then [root] else [])
  | linked {place link : Location} {e : Entry} {target : String} :
      fs.lstat root = .ok (link, .link target) → fs.stat root = .ok (place, e) → e ≠ .folder →
      Finds fs f root []
  | void {place : Location} : fs.lstat root = .ok (place, .void) → Finds fs f root []
  | absent : ¬ fs.present root → Finds fs f root []

theorem FileSystem.exists_finds (fs : FileSystem) (f : FileFilter) (root : Path) :
    ∃ found, fs.Finds f root found := by
  by_cases hpresent : fs.present root
  · obtain ⟨place, e, hstat⟩ := present_iff.mp hpresent
    by_cases hfolder : e = .folder
    · exact ⟨_, .folder (hfolder ▸ hstat)⟩
    obtain ⟨link, e', hlstat⟩ := lstat_of_stat hstat
    cases e' with
    | folder =>
        rw [stat_of_lstat hlstat (by rintro t ⟨⟩)] at hstat
        cases hstat
        exact absurd rfl hfolder
    | file bytes runnable => exact ⟨_, .file hlstat⟩
    | link target => exact ⟨_, .linked hlstat hstat hfolder⟩
    | void => exact ⟨_, .void hlstat⟩
  · exact ⟨_, .absent hpresent⟩

theorem FileSystem.Finds.findFiles_eq {found : List Path} (h : fs.Finds f root found) :
    fs.findFiles f root = found.mergeSort Path.le := by
  unfold findFiles
  cases h with
  | folder hstat =>
      obtain ⟨link, e, hlstat⟩ := lstat_of_stat hstat
      rcases folder_or_link hlstat hstat with ⟨rfl, rfl⟩ | ⟨t, rfl⟩
      · simp [hlstat]
      · simp [hlstat, hstat]
  | file hlstat => simp [hlstat]
  | @linked place link e target hlstat hstat hfolder =>
      cases e with
      | folder => exact absurd rfl hfolder
      | file bytes runnable => simp [hlstat, hstat]
      | link t => simp [hlstat, hstat]
      | void => simp [hlstat, hstat]
  | void hlstat => simp [hlstat, FileFilter.keeps]
  | absent hpresent =>
      have hstat : ∀ l e, fs.stat root ≠ .ok (l, e) := fun l e heq =>
        hpresent (present_iff.mpr ⟨l, e, heq⟩)
      cases hlstat : fs.lstat root with
      | error err => rfl
      | ok found =>
          obtain ⟨link, e⟩ := found
          have hlink : ∃ t, e = .link t := by
            by_contra hnot
            exact hstat _ _ (stat_of_lstat hlstat fun t heq => hnot ⟨t, heq⟩)
          obtain ⟨target, rfl⟩ := hlink
          cases hstat' : fs.stat root with
          | error err => rfl
          | ok found => exact absurd hstat' (hstat found.1 found.2)

/-- A search from a path finds the same files that count, if it looks at the same ones. -/
theorem FileSystem.Grows.finds {found : List Path} (h : Grows P fs after) (hfs : fs.WellFormed)
    (hpresent : after.present root → fs.present root)
    (hsame : ∀ {place e}, fs.stat root = .ok (place, e) → f.Unmoved silent place fs after)
    (hfound : fs.Finds f root found) :
    ∃ found', after.Finds f root found' ∧
      found'.filter (after.heard silent) = found.filter (fs.heard silent) := by
  cases hfound with
  | @folder place hstat =>
      have hlength : fs.entries.length ≤ after.entries.length := by
        obtain ⟨new, hkeys, -⟩ := h.keys
        have := congrArg List.length hkeys
        simp only [List.length_map, List.length_append] at this
        omega
      have hdepth : fs.filesBelow f (after.entries.length + 1) root place =
          fs.filesBelow f (fs.entries.length + 1) root place :=
        hfs.filesBelow_depth (by omega) (by omega)
      refine ⟨_, .folder (h.keeps.stat_folder hstat), ?_⟩
      rw [h.filter_filesBelow hfs (fun _ => hstat) (hsame hstat), hdepth]
  | @file place bytes runnable hlstat =>
      have hstat := stat_of_lstat hlstat (by rintro t ⟨⟩)
      obtain ⟨e, he, halike⟩ := h.keeps.lookUp hlstat
      obtain ⟨bytes', runnable', rfl⟩ := halike.exists_file
      have hstat' := stat_of_lstat he (by rintro t ⟨⟩)
      have hcontents := (hsame hstat).contents (f.looksAt_self place)
        (get?_of_resolve (stat_eq_ok_iff.mp hstat)) (get?_of_resolve (stat_eq_ok_iff.mp hstat'))
      exact ⟨_, .file he, FileFilter.filter_keeps_eq true (heard_of_file hstat)
        (heard_of_file hstat') hcontents⟩
  | linked hlstat hstat hfolder =>
      obtain ⟨e, he, halike⟩ := h.keeps.lookUp hlstat
      cases halike
      obtain ⟨e', he', halike'⟩ := h.keeps.lookUp hstat
      refine ⟨[], .linked he he' ?_, rfl⟩
      rintro rfl
      cases halike'
      exact hfolder rfl
  | void hlstat =>
      obtain ⟨e, he, halike⟩ := h.keeps.lookUp hlstat
      cases halike
      exact ⟨[], .void he, rfl⟩
  | absent habsent => exact ⟨[], .absent fun hp => habsent (hpresent hp), rfl⟩

theorem FileSystem.Finds.stat_of_mem {found : List Path} (hfound : fs.Finds f root found)
    (hfs : fs.WellFormed) (hp : p ∈ found) :
    checkPath p ≠ .ok () ∨ ∃ place e l bytes runnable, fs.stat root = .ok (place, e) ∧
      f.LooksAt place l ∧ fs.stat p = .ok (l, .file bytes runnable) := by
  cases hfound with
  | folder hstat =>
      rcases hfs.stat_of_mem_filesBelow (fun _ => hstat) hp with
        hlong | ⟨l, bytes, runnable, hl, hfile⟩
      · exact .inl hlong
      · exact .inr ⟨_, _, l, bytes, runnable, hstat, hl, hfile⟩
  | @file place bytes runnable hlstat =>
      split at hp
      · rw [List.mem_singleton.mp hp]
        have hstat := stat_of_lstat hlstat (by rintro t ⟨⟩)
        exact .inr ⟨place, _, place, bytes, runnable, hstat, f.looksAt_self place, hstat⟩
      · cases hp
  | linked => cases hp
  | void => cases hp
  | absent => cases hp

theorem FileSystem.Grows.read_eq {found : List Path} (h : Grows P fs after) (hfs : fs.WellFormed)
    (hsame : ∀ {place e}, fs.stat root = .ok (place, e) → f.Unmoved silent place fs after)
    (hfound : fs.Finds f root found) (hp : p ∈ found) (hheard : fs.heard silent p) :
    after.read p = fs.read p := by
  rcases hfound.stat_of_mem hfs hp with hlong | ⟨place, e, l, bytes, runnable, hroot, hl, hstat⟩
  · rw [heard_of_checkPath hlong] at hheard
    cases hheard
  · obtain ⟨e', he', halike⟩ := h.keeps.lookUp hstat
    obtain ⟨bytes', runnable', rfl⟩ := halike.exists_file
    rw [heard_of_file hstat] at hheard
    rcases (hsame hroot).contents hl (get?_of_resolve (stat_eq_ok_iff.mp hstat))
      (get?_of_resolve (lookUp_eq_ok_iff.mp he')) with rfl | ⟨-, hsilent⟩
    · rw [read_of_file hstat, read_of_file he']
    · simp [hsilent] at hheard

end Docset
