import Docset.Proofs.Files.Spelling

/-!
# The files that a search is for

Whether a search gives a file is decided name by name on the way down: at a name that is
passed over, nothing below it is seen either. Here it is said of the file as a whole. A
search gives the files below its starting folder none of whose names is passed over, with a
wanted ending and size, each of them once and sorted by components. How the starting folder
is called makes no difference, and no link below it is followed.
-/
namespace Docset

open FileSystem

variable {fs : FileSystem} {f : FileFilter} {root : Path} {place : Location} {name : String}
  {names more : List String} {depth : Nat}

/-! ## Admissible files -/

/-- Names under which nothing is looked for: those of generated files, those to be left out, and
hidden ones unless they are wanted. -/
def FileFilter.PassesOver (f : FileFilter) (name : String) : Prop :=
  name ∈ generatedNames ∨ name ∈ f.exclude ∨ f.includeHidden = false ∧ ['.'] <+: name.toList

instance (f : FileFilter) (name : String) : Decidable (f.PassesOver name) :=
  inferInstanceAs (Decidable (_ ∨ _ ∨ _ ∧ _))

def FileFilter.WantsEnding (f : FileFilter) (name : String) : Prop :=
  f.suffixes = [] ∨ ∃ suffix ∈ f.suffixes, suffix.toList <:+ name.toList

instance (f : FileFilter) (name : String) : Decidable (f.WantsEnding name) :=
  inferInstanceAs (Decidable (_ ∨ _))

/-- The names lead from a folder down to a file that a search is for. -/
structure FileFilter.Admissible (f : FileFilter) (fs : FileSystem) (place : Location)
    (names : List String) : Prop where
  below : names ≠ []
  kept : ∀ name ∈ names, ¬ f.PassesOver name
  ending : ∀ name ∈ names.getLast?, f.WantsEnding name
  file : ∃ bytes runnable, fs.get? (names.reverse ++ place) = some (.file bytes runnable) ∧
    ∀ limit ∈ f.maxSize, bytes.size ≤ limit.toNat

theorem FileFilter.admits_iff : f.admits name ↔ ¬ f.PassesOver name := by
  have hhead : name.toList.head? = some '.' ↔ ['.'] <+: name.toList := by
    cases name.toList with
    | nil => simp
    | cons c cs => simp [List.cons_prefix_cons, eq_comm]
  unfold FileFilter.admits FileFilter.PassesOver
  rw [← hhead]
  simp only [Bool.and_eq_true, Bool.or_eq_true, Bool.not_eq_true', decide_eq_true_eq, not_or,
    not_and, List.contains_eq_mem, decide_eq_false_iff_not]
  cases f.includeHidden <;> simp
  tauto

theorem FileFilter.keepsName_iff : f.keepsName name ↔ f.WantsEnding name := by
  simp [FileFilter.keepsName, FileFilter.WantsEnding]

theorem FileFilter.keepsSize_iff {size : Nat} :
    f.keepsSize size ↔ ∀ limit ∈ f.maxSize, size ≤ limit.toNat := by
  unfold FileFilter.keepsSize
  cases f.maxSize with
  | none => simp
  | some limit => simp

theorem FileFilter.admissible_singleton {bytes : ByteArray} {runnable : Bool}
    (hget : fs.get? (name :: place) = some (.file bytes runnable)) :
    f.Admissible fs place [name] ↔
      f.admits name ∧ f.keepsName name ∧ f.keepsSize bytes.size := by
  rw [admits_iff, keepsName_iff, keepsSize_iff]
  constructor
  · intro h
    obtain ⟨bytes', runnable', hget', hsize⟩ := h.file
    rw [List.reverse_singleton, List.singleton_append, hget] at hget'
    cases hget'
    exact ⟨h.kept name (by simp), h.ending name rfl, hsize⟩
  · rintro ⟨hkept, hending, hsize⟩
    exact ⟨by simp, by simpa using hkept, by simpa using hending, bytes, runnable, hget, hsize⟩

theorem FileFilter.admissible_cons (hne : names ≠ []) :
    f.Admissible fs place (name :: names) ↔
      f.admits name ∧ f.Admissible fs (name :: place) names := by
  have hlocation : (name :: names).reverse ++ place = names.reverse ++ name :: place := by simp
  have hlast : (name :: names).getLast? = names.getLast? := by
    rw [List.getLast?_cons]
    cases hlast : names.getLast? with
    | none => exact absurd (List.getLast?_eq_none_iff.mp hlast) hne
    | some last => rfl
  rw [admits_iff]
  constructor
  · rintro ⟨-, hkept, hending, hfile⟩
    rw [List.forall_mem_cons] at hkept
    rw [hlast] at hending
    rw [hlocation] at hfile
    exact ⟨hkept.1, hne, hkept.2, hending, hfile⟩
  · rintro ⟨hname, -, hkept, hending, hfile⟩
    refine ⟨by simp, List.forall_mem_cons.mpr ⟨hname, hkept⟩, ?_, ?_⟩
    · rwa [hlast]
    · rwa [hlocation]

/-! ## What a search finds, file by file -/

/-- What a search finds under one name of a folder, by names from the folder on. -/
def FileSystem.namesAt (fs : FileSystem) (f : FileFilter) (depth : Nat) (place : Location)
    (name : String) : List (List String) :=
  if f.admits name then
    match fs.get? (name :: place) with
    | some .folder => (fs.namesBelow f depth (name :: place)).map (name :: ·)
    | some (.file bytes _) =>
        if f.keepsName name && f.keepsSize bytes.size then [[name]] else []
    | _ => []
  else []

theorem FileSystem.namesBelow_succ :
    fs.namesBelow f (depth + 1) place = (fs.names place).flatMap (fs.namesAt f depth place) := rfl

theorem FileSystem.mem_namesAt_iff :
    names ∈ fs.namesAt f depth place name ↔ f.admits name ∧
      ((fs.get? (name :: place) = some .folder ∧
          ∃ inner ∈ fs.namesBelow f depth (name :: place), names = name :: inner) ∨
        ∃ bytes runnable, fs.get? (name :: place) = some (.file bytes runnable) ∧
          (f.keepsName name ∧ f.keepsSize bytes.size) ∧ names = [name]) := by
  unfold FileSystem.namesAt
  by_cases hadmits : f.admits name
  swap
  · simp [hadmits]
  rw [if_pos hadmits]
  cases hget : fs.get? (name :: place) with
  | none => simp
  | some e =>
      cases e with
      | folder =>
          simp only [hadmits, List.mem_map, Option.some.injEq, reduceCtorEq, false_and,
            exists_false, or_false, true_and]
          exact exists_congr fun inner => and_congr_right fun _ => eq_comm
      | file bytes runnable =>
          by_cases hkeeps : f.keepsName name ∧ f.keepsSize bytes.size
          · simp [hadmits, hkeeps]
          · simp [hadmits, hkeeps]
      | link target => simp
      | void => simp

/-- A search that may go deep enough finds the admissible files. -/
theorem FileSystem.WellFormed.mem_namesBelow_iff (hfs : fs.WellFormed) :
    names ∈ fs.namesBelow f depth place ↔
      f.Admissible fs place names ∧ names.length ≤ depth := by
  induction depth generalizing names place with
  | zero =>
      constructor
      · intro h
        cases h
      · rintro ⟨h, hlength⟩
        exact absurd (List.length_eq_zero_iff.mp (Nat.le_zero.mp hlength)) h.below
  | succ depth ih =>
      rw [namesBelow_succ, List.mem_flatMap]
      constructor
      · rintro ⟨name, -, h⟩
        obtain ⟨hadmits, ⟨-, inner, hinner, rfl⟩ | ⟨bytes, runnable, hget, hkeeps, rfl⟩⟩ :=
          mem_namesAt_iff.mp h
        · obtain ⟨hadmissible, hlength⟩ := ih.mp hinner
          exact ⟨(FileFilter.admissible_cons hadmissible.below).mpr ⟨hadmits, hadmissible⟩,
            Nat.succ_le_succ hlength⟩
        · exact ⟨(FileFilter.admissible_singleton hget).mpr ⟨hadmits, hkeeps⟩,
            Nat.succ_le_succ (Nat.zero_le depth)⟩
      · rintro ⟨h, hlength⟩
        obtain ⟨bytes, runnable, hget, -⟩ := h.file
        cases names with
        | nil => exact absurd rfl h.below
        | cons name names =>
            rw [List.reverse_cons, List.append_assoc, List.singleton_append] at hget
            cases names with
            | nil =>
                obtain ⟨hadmits, hkeeps⟩ := (FileFilter.admissible_singleton hget).mp h
                exact ⟨name, mem_names_iff.mpr (Option.isSome_of_eq_some hget),
                  mem_namesAt_iff.mpr ⟨hadmits, .inr ⟨bytes, runnable, hget, hkeeps, rfl⟩⟩⟩
            | cons next names =>
                have hfolder : fs.get? (name :: place) = some .folder :=
                  hfs.get?_append (next :: names).reverse (by simp) (by rw [hget]; rfl)
                obtain ⟨hadmits, hinner⟩ := (FileFilter.admissible_cons (by simp)).mp h
                have hdeep := ih.mpr ⟨hinner, Nat.le_of_succ_le_succ hlength⟩
                exact ⟨name, mem_names_iff.mpr (Option.isSome_of_eq_some hfolder),
                  mem_namesAt_iff.mpr ⟨hadmits, .inl ⟨hfolder, _, hdeep, rfl⟩⟩⟩

theorem FileSystem.head?_of_mem_namesAt (h : names ∈ fs.namesAt f depth place name) :
    names.head? = some name := by
  obtain ⟨-, ⟨-, inner, -, rfl⟩ | ⟨bytes, runnable, -, -, rfl⟩⟩ := mem_namesAt_iff.mp h
  · rfl
  · rfl

/-- No file is found twice, since what is found under a name of a folder starts with that name. -/
theorem FileSystem.WellFormed.nodup_namesBelow (hfs : fs.WellFormed) :
    (fs.namesBelow f depth place).Nodup := by
  induction depth generalizing place with
  | zero => exact List.nodup_nil
  | succ depth ih =>
      rw [namesBelow_succ]
      refine List.nodup_flatMap.mpr ⟨fun name _ => ?_, ?_⟩
      · unfold FileSystem.namesAt
        split
        swap
        · exact List.nodup_nil
        split
        · exact ih.map fun as bs heq => (List.cons.inj heq).2
        · split
          · exact List.nodup_singleton _
          · exact List.nodup_nil
        · exact List.nodup_nil
      · refine (hfs.nodup_names place).imp fun {name name'} hne names hnames hnames' => hne ?_
        have hsame := (head?_of_mem_namesAt hnames).symm.trans (head?_of_mem_namesAt hnames')
        exact Option.some.inj hsame

/-! ## What a search from a path finds -/

/-- One path comes before another one in the order of components, and is not a second spelling of
it. -/
def Path.Before (p q : Path) : Prop := p.le q ∧ p.components ≠ q.components

theorem Path.below_injective (hroot : root.text ≠ "") (hnames : ∀ n ∈ names, IsName n)
    (hmore : ∀ n ∈ more, IsName n)
    (h : (root.below names).components = (root.below more).components) : names = more := by
  rw [components_below hroot hnames, components_below hroot hmore] at h
  exact List.map_injective_iff.mpr (fun _ _ heq => Component.name.inj heq)
    (List.append_cancel_left h)

theorem FileFilter.Admissible.isName (h : f.Admissible fs place names) (hfs : fs.WellFormed) :
    ∀ n ∈ names, IsName n := by
  obtain ⟨bytes, runnable, hget, -⟩ := h.file
  intro n hn
  exact hfs.isName_of_mem hget n (by simp [hn])

theorem FileFilter.Admissible.ne_link {target : String}
    (h : f.Admissible fs place (names ++ more)) (hfs : fs.WellFormed) :
    fs.get? (names.reverse ++ place) ≠ some (.link target) := by
  obtain ⟨bytes, runnable, hget, -⟩ := h.file
  rw [List.reverse_append, List.append_assoc] at hget
  intro hlink
  by_cases hmore : more.reverse = []
  · rw [hmore, List.nil_append, hlink] at hget
    cases hget
  · have hfolder := hfs.get?_append more.reverse hmore (by rw [hget]; rfl)
    rw [hlink] at hfolder
    cases hfolder

theorem FileSystem.WellFormed.mem_sortedNames_iff (hfs : fs.WellFormed) :
    names ∈ fs.sortedNames f place ↔ f.Admissible fs place names := by
  unfold FileSystem.sortedNames
  rw [List.mem_mergeSort, hfs.mem_namesBelow_iff]
  refine ⟨And.left, fun h => ⟨h, ?_⟩⟩
  obtain ⟨bytes, runnable, hget, -⟩ := h.file
  have hlength := hfs.length_le hget
  rw [List.length_append, List.length_reverse] at hlength
  omega

/-- A search from the path of a folder gives exactly the admissible files below the folder, sorted
by components and each of them once. A link below the folder is neither followed nor given. -/
theorem findFiles_admissible (f : FileFilter) (hfs : fs.WellFormed)
    (hroot : fs.stat root = .ok (place, .folder)) (hreach : f.Reaches fs root place) :
    (fs.findFiles f root).Pairwise Path.Before ∧ (fs.findFiles f root).Nodup ∧
      (∀ p, p ∈ fs.findFiles f root ↔ ∃ names, p = root.below names ∧ f.Admissible fs place names) ∧
      ∀ names target, fs.get? (names.reverse ++ place) = some (.link target) →
        ∀ more, (∀ name ∈ more, IsName name) →
          root.below (names ++ more) ∉ fs.findFiles f root := by
  have hne : root.text ≠ "" :=
    (checkPath_eq_ok_iff.mp (resolve_eq_ok_iff.mp (stat_eq_ok_iff.mp hroot)).1).2.1
  have hfound := hreach.findFiles_eq hfs hne fun _ => hroot
  have hmem : ∀ p, p ∈ fs.findFiles f root ↔
      ∃ names, p = root.below names ∧ f.Admissible fs place names := by
    intro p
    rw [hfound, List.mem_map]
    constructor
    · rintro ⟨names, hnames, rfl⟩
      exact ⟨names, rfl, hfs.mem_sortedNames_iff.mp hnames⟩
    · rintro ⟨names, rfl, hnames⟩
      exact ⟨names, hfs.mem_sortedNames_iff.mpr hnames, rfl⟩
  have hstrict : (fs.findFiles f root).Pairwise Path.Before := by
    have hsorted : (fs.findFiles f root).Pairwise (fun p q => p.le q) := by
      obtain ⟨found, hfinds⟩ := fs.exists_finds f root
      rw [hfinds.findFiles_eq]
      exact List.pairwise_mergeSort Path.le_trans Path.le_total found
    have hdistinct : (fs.findFiles f root).Pairwise (fun p q => p.components ≠ q.components) := by
      rw [hfound, List.pairwise_map]
      have hnodup : (fs.sortedNames f place).Nodup :=
        (List.mergeSort_perm _ _).nodup_iff.mpr hfs.nodup_namesBelow
      refine hnodup.imp_of_mem fun {as bs} has hbs hdiffer heq => hdiffer ?_
      exact Path.below_injective hne ((hfs.mem_sortedNames_iff.mp has).isName hfs)
        ((hfs.mem_sortedNames_iff.mp hbs).isName hfs) heq
    exact hsorted.imp₂ (fun p q hle hdiffer => ⟨hle, hdiffer⟩) hdistinct
  refine ⟨hstrict, hstrict.imp fun {p q} hbefore heq => hbefore.2 (congrArg _ heq), hmem, ?_⟩
  intro names target hlink more hmore hin
  obtain ⟨found, heq, hadmissible⟩ := (hmem _).mp hin
  have hnames : ∀ n ∈ names ++ more, IsName n := by
    intro n hn
    rcases List.mem_append.mp hn with hn | hn
    · exact hfs.isName_of_mem hlink n (by simp [hn])
    · exact hmore n hn
  have hsame := Path.below_injective hne hnames (hadmissible.isName hfs) (congrArg _ heq)
  rw [← hsame] at hadmissible
  exact hadmissible.ne_link hfs hlink

/-- Modules in a folder that a search from further outside would pass over, one of them too large,
one in a folder that is passed over, and one a link. -/
def generatedModules : FileSystem :=
  { entries :=
      [(["build"], .folder),
        (["lib", "build"], .folder),
        (["a.stories.js", "lib", "build"], .file "a".toUTF8 false),
        (["b.stories.js", "lib", "build"], .file "too large".toUTF8 false),
        (["dist", "build"], .folder),
        (["c.stories.js", "dist", "build"], .file "c".toUTF8 false),
        (["d.stories.js", "build"], .link "dist/c.stories.js")]
    here := [] }

def smallModules : FileFilter := { suffixes := [".stories.js"], maxSize := some 4 }

theorem findFiles_admissible_in_build :
    (⟨"/build/lib/a.stories.js"⟩ ∈ generatedModules.findFiles smallModules ⟨"/build"⟩ ∧
      ⟨"/build/d.stories.js"⟩ ∉ generatedModules.findFiles smallModules ⟨"/build"⟩) ∧
      (generatedModules.findFiles smallModules ⟨"/build"⟩).Pairwise Path.Before := by
  have hroot : (generatedModules.stat ⟨"/build"⟩).toOption = some (["build"], .folder) := by
    decide +kernel
  have hfs : generatedModules.WellFormed := ⟨by decide +kernel, by decide +kernel⟩
  obtain ⟨hsorted, -, hmem, hlink⟩ := findFiles_admissible smallModules hfs
    (except_toOption_eq_some_iff.mp hroot) (FileFilter.reaches_of_entries (by decide +kernel))
  have hfile : generatedModules.get? (["lib", "a.stories.js"].reverse ++ ["build"]) =
      some (.file "a".toUTF8 false) := by decide +kernel
  have hsmall : ∀ limit ∈ smallModules.maxSize, "a".toUTF8.size ≤ limit.toNat := by
    rintro limit ⟨⟩
    decide
  refine ⟨⟨(hmem _).mpr ⟨["lib", "a.stories.js"], by decide +kernel, by simp, by decide +kernel,
    by decide +kernel, _, _, hfile, hsmall⟩, ?_⟩, hsorted⟩
  exact hlink ["d.stories.js"] "dist/c.stories.js" (by decide +kernel) [] (by simp)

end Docset
