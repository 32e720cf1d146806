import Docset.Proofs.Files.Canonical
import Docset.Proofs.Files.Order
import Docset.Proofs.Files.Search

/-!
# One folder under two paths

What a search finds below a folder can be told by the names that lead there from the
folder; the path of the folder is only put before them. So a search gives the same files in
the same order under every path of a folder, as long as each of the files can be named from
that path: the sorting compares components, and those of the folder's path are the same for
all of them.
-/
namespace Docset

open FileSystem

variable {fs : FileSystem} {f : FileFilter} {base : Path} {place : Location} {e : Entry}
  {name : String} {names : List String} {depth : Nat} {bytes : ByteArray} {runnable : Bool}

/-! ## Names below a path -/

/-- The path that names have, one inside the other, from a path on. -/
def Path.below (base : Path) (names : List String) : Path :=
  names.foldl (fun p name => p.join ⟨name⟩) base

theorem Path.below_cons (base : Path) (name : String) (names : List String) :
    base.below (name :: names) = (base.join ⟨name⟩).below names := rfl

theorem checkPath_of_join (hbase : base.text ≠ "") (hname : IsName name)
    (h : checkPath (base.join ⟨name⟩) = .ok ()) : checkPath base = .ok () := by
  have habs := Path.isAbsolute_of_slash_notMem hname.2.1
  obtain ⟨tail, htext⟩ : ∃ tail, (base.join ⟨name⟩).text = base.text ++ tail := by
    unfold Path.join
    rw [if_neg (by simp [habs])]
    split
    · exact ⟨name, rfl⟩
    · exact ⟨"/" ++ name, String.append_assoc⟩
  obtain ⟨hnul, -, hlong⟩ := checkPath_eq_ok_iff.mp h
  rw [htext] at hnul hlong
  refine checkPath_eq_ok_iff.mpr ⟨?_, hbase, ?_⟩
  · intro hmem
    exact hnul (by simp [hmem])
  · rw [String.utf8ByteSize_append] at hlong
    omega

theorem checkPath_of_below (hbase : base.text ≠ "") (hnames : ∀ name ∈ names, IsName name)
    (h : checkPath (base.below names) = .ok ()) : checkPath base = .ok () := by
  induction names generalizing base with
  | nil => exact h
  | cons name names ih =>
      have hname := hnames name List.mem_cons_self
      have hinner := ih (Path.text_join_ne_empty hname.1.1 hname.2.1)
        (fun n hn => hnames n (List.mem_cons_of_mem name hn)) h
      exact checkPath_of_join hbase hname hinner

theorem FileSystem.WellFormed.stat_below (hfs : fs.WellFormed)
    (hbase : fs.stat base = .ok (place, .folder))
    (hget : fs.get? (names.reverse ++ place) = some e) (he : ∀ t, e ≠ .link t)
    (hcheck : checkPath (base.below names) = .ok ()) :
    fs.stat (base.below names) = .ok (names.reverse ++ place, e) := by
  induction names generalizing base place with
  | nil =>
      have hfolder := get?_of_resolve (stat_eq_ok_iff.mp hbase)
      rw [List.reverse_nil, List.nil_append, hfolder] at hget
      cases hget
      exact hbase
  | cons name names ih =>
      rw [List.reverse_cons, List.append_assoc, List.singleton_append] at hget ⊢
      have hall := hfs.isName_of_mem hget
      have hname : IsName name := hall name (by simp)
      have hnames : ∀ n ∈ names, IsName n := fun n hn => hall n (by simp [hn])
      have hne := Path.text_join_ne_empty (p := base) hname.1.1 hname.2.1
      have hinner := checkPath_of_below hne hnames hcheck
      cases names with
      | nil => exact stat_join hbase hname hinner hget he
      | cons next names =>
          have hfolder : fs.get? (name :: place) = some .folder :=
            hfs.get?_append (next :: names).reverse (by simp) (by rw [hget]; rfl)
          exact ih (stat_join hbase hname hinner hfolder (by rintro t ⟨⟩)) hget hcheck

/-! ## What a search finds, by names -/

/-- The files that a search finds below a place, each by its names from there on. -/
def FileSystem.namesBelow (fs : FileSystem) (f : FileFilter) : Nat → Location → List (List String)
  | 0, _ => []
  | depth + 1, place =>
      (fs.names place).flatMap fun name =>
        if f.admits name then
          match fs.get? (name :: place) with
          | some .folder => (namesBelow fs f depth (name :: place)).map (name :: ·)
          | some (.file bytes _) =>
              if f.keepsName name && f.keepsSize bytes.size then [[name]] else []
          | _ => []
        else []

/-- Every file that a search looks at can be named from a path. -/
def FileFilter.Reaches (f : FileFilter) (fs : FileSystem) (base : Path) (place : Location) : Prop :=
  ∀ names bytes runnable, f.LooksAt place (names.reverse ++ place) →
    fs.get? (names.reverse ++ place) = some (.file bytes runnable) →
    checkPath (base.below names) = .ok ()

theorem FileFilter.reaches_of_entries
    (h : ∀ p ∈ fs.entries,
      ¬ (checkPath (base.below (p.1.take (p.1.length - place.length)).reverse)).toOption.isNone) :
    f.Reaches fs base place := by
  intro names bytes runnable _ hget
  have hne : names.reverse ++ place ≠ [] := by
    intro hnil
    rw [hnil] at hget
    cases hget
  have hnames : ((names.reverse ++ place).take
      ((names.reverse ++ place).length - place.length)).reverse = names := by
    simp
  have hentry := h _ (mem_of_get? hget hne)
  rwa [hnames, checkPath_isNone_iff, not_not] at hentry

theorem FileFilter.looksAt_below (hadmits : f.admits name)
    (hfolder : fs.get? (name :: place) = some .folder)
    (hl : f.LooksAt (name :: place) (names.reverse ++ name :: place))
    (hget : fs.get? (names.reverse ++ name :: place) = some (.file bytes runnable)) :
    f.LooksAt place ((name :: names).reverse ++ place) ∧
      fs.get? ((name :: names).reverse ++ place) = some (.file bytes runnable) := by
  have hne : names.reverse ++ name :: place ≠ name :: place := by
    intro heq
    rw [heq, hfolder] at hget
    cases hget
  rw [List.reverse_cons, List.append_assoc, List.singleton_append]
  exact ⟨hl.of_cons hadmits hne, hget⟩

theorem FileFilter.Reaches.cons (h : f.Reaches fs base place) (hadmits : f.admits name)
    (hfolder : fs.get? (name :: place) = some .folder) :
    f.Reaches fs (base.join ⟨name⟩) (name :: place) := by
  intro names bytes runnable hl hget
  obtain ⟨hl', hget'⟩ := FileFilter.looksAt_below hadmits hfolder hl hget
  exact h (name :: names) bytes runnable hl' hget'

theorem FileSystem.looksAt_of_mem_namesBelow (h : names ∈ fs.namesBelow f depth place) :
    f.LooksAt place (names.reverse ++ place) ∧
      ∃ bytes runnable, fs.get? (names.reverse ++ place) = some (.file bytes runnable) := by
  induction depth generalizing names place with
  | zero => cases h
  | succ depth ih =>
      obtain ⟨name, -, h⟩ := List.mem_flatMap.mp h
      split at h
      swap
      · cases h
      rename_i hadmits
      split at h
      · rename_i hfolder
        obtain ⟨inner, hinner, rfl⟩ := List.mem_map.mp h
        obtain ⟨hl, bytes, runnable, hget⟩ := ih hinner
        obtain ⟨hl', hget'⟩ := FileFilter.looksAt_below hadmits hfolder hl hget
        exact ⟨hl', bytes, runnable, hget'⟩
      · rename_i bytes runnable hget
        split at h
        swap
        · cases h
        rename_i hkeeps
        rw [Bool.and_eq_true] at hkeeps
        rw [List.mem_singleton.mp h]
        exact ⟨FileFilter.looksAt_cons hadmits hkeeps.1, bytes, runnable, hget⟩
      · cases h

theorem FileFilter.Reaches.namesBelow_eq_nil (h : f.Reaches fs base place) (hfs : fs.WellFormed)
    (hbase : base.text ≠ "") (hcheck : checkPath base ≠ .ok ()) :
    fs.namesBelow f depth place = [] := by
  apply List.eq_nil_iff_forall_not_mem.mpr
  intro names hmem
  obtain ⟨hl, bytes, runnable, hget⟩ := looksAt_of_mem_namesBelow hmem
  have hall := hfs.isName_of_mem hget
  have hnames : ∀ n ∈ names, IsName n := fun n hn => hall n (by simp [hn])
  exact hcheck (checkPath_of_below hbase hnames (h names bytes runnable hl hget))

/-- A search that reaches every file gives the path of the folder, followed by names. -/
theorem FileFilter.Reaches.filesBelow_eq (h : f.Reaches fs base place) (hfs : fs.WellFormed)
    (hbase : base.text ≠ "") :
    fs.filesBelow f depth base place = (fs.namesBelow f depth place).map base.below := by
  induction depth generalizing base place with
  | zero => rfl
  | succ depth ih =>
      rw [hfs.filesBelow_eq]
      split
      · rename_i hcheck
        rw [h.namesBelow_eq_nil hfs hbase (checkPath_isNone_iff.mp hcheck)]
        rfl
      · unfold FileSystem.namesBelow
        rw [List.map_flatMap]
        apply List.flatMap_congr
        intro name hmem
        obtain ⟨e, hget⟩ := Option.isSome_iff_exists.mp (mem_names_iff.mp hmem)
        by_cases hadmits : f.admits name
        swap
        · rw [foundAt_of_not_admits hadmits, if_neg hadmits]
          rfl
        rw [if_pos hadmits, hget]
        have hname := (hfs.placed_of_get? (List.cons_ne_nil name place) hget).1
        cases e with
        | folder =>
            have hne := Path.text_join_ne_empty (p := base) hname.1.1 hname.2.1
            rw [foundAt_of_folder hadmits hget, ih (h.cons hadmits hget) hne, List.map_map]
            rfl
        | file bytes runnable =>
            have hkeeps : f.keeps (base.join ⟨name⟩) name (.file bytes runnable) =
                (f.keepsName name && f.keepsSize bytes.size) := by
              cases hkept : f.keepsName name with
              | false => simp [FileFilter.keeps, hkept]
              | true =>
                  have hinner :=
                    h [name] bytes runnable (FileFilter.looksAt_cons hadmits hkept) hget
                  have husable : (checkPath (base.join ⟨name⟩)).toOption.isNone = false := by
                    rw [Bool.eq_false_iff]
                    exact fun hnone => checkPath_isNone_iff.mp hnone hinner
                  simp [FileFilter.keeps, hkept, husable]
            rw [foundAt_of_not_folder hadmits hget (by rintro ⟨⟩), hkeeps]
            simp only
            split
            · rfl
            · rfl
        | link t =>
            rw [foundAt_of_not_folder hadmits hget (by rintro ⟨⟩)]
            rfl
        | void =>
            rw [foundAt_of_not_folder hadmits hget (by rintro ⟨⟩)]
            rfl

/-! ## The order of what is found -/

theorem Path.components_of_isAbsolute {p : Path} (h : p.isAbsolute) :
    p.components = .root :: p.pieces.filterMap innerComponent? := by
  obtain ⟨cs, hcs⟩ : ∃ cs, p.text.toList = '/' :: cs := by
    have hhead : p.text.toList.head? = some '/' := by simpa [Path.isAbsolute] using h
    exact ⟨p.text.toList.tail, (List.cons_head?_tail hhead).symm⟩
  have hp : p = ⟨"" ++ "/" ++ String.ofList cs⟩ := by
    have htext : p.text = "" ++ "/" ++ String.ofList cs := by
      rw [← String.toList_inj]
      simpa using hcs
    rw [← htext]
  have hpieces : p.pieces = "" :: (⟨String.ofList cs⟩ : Path).pieces := by
    rw [hp, Path.pieces_append_slash]
    rfl
  unfold Path.components
  rw [hpieces]
  simp [h, innerComponent?]

theorem Path.components_join {p : Path} (h : p.text ≠ "") (hname : IsName name) :
    (p.join ⟨name⟩).components = p.components ++ [.name name] := by
  obtain ⟨ps, blanks, hpieces, hblanks, hjoin⟩ := Path.pieces_join h hname.2.1
  have hidle : blanks.filterMap innerComponent? = [] := by
    rw [List.filterMap_eq_nil_iff]
    intro piece hpiece
    rw [hblanks piece hpiece]
    rfl
  have hcomponent : innerComponent? name = some (.name name) := by
    simp [innerComponent?, hname.1.1, hname.1.2.1, hname.1.2.2]
  have habs := isAbsolute_join h hname.2.1
  by_cases hroot : p.isAbsolute
  · rw [components_of_isAbsolute hroot, components_of_isAbsolute (habs.trans hroot), hpieces,
      hjoin, List.filterMap_append, List.filterMap_append, hidle]
    simp [hcomponent]
  · -- The first piece says how a relative path begins; a name that comes first says it itself.
    unfold components
    rw [hpieces, hjoin, habs]
    cases ps with
    | cons first ps =>
        simp only [List.cons_append, List.filterMap_append, hidle, List.append_nil,
          List.filterMap_cons, List.filterMap_nil, hcomponent, List.append_assoc]
    | nil =>
        cases blanks with
        | nil => simp [hroot, hname.1.2.1, hcomponent]
        | cons blank blanks =>
            rw [List.filterMap_eq_nil_iff, List.forall_mem_cons] at hidle
            have hdot : blank ≠ "." := by
              rw [hblanks blank List.mem_cons_self]
              decide
            simp [hroot, hname.1.2.1, hcomponent, hdot, hidle.1,
              List.filterMap_eq_nil_iff.mpr hidle.2]

theorem Path.components_below (h : base.text ≠ "") (hnames : ∀ name ∈ names, IsName name) :
    (base.below names).components = base.components ++ names.map .name := by
  induction names generalizing base with
  | nil => simp [Path.below]
  | cons name names ih =>
      have hname := hnames name List.mem_cons_self
      rw [below_cons,
        ih (text_join_ne_empty hname.1.1 hname.2.1)
          fun n hn => hnames n (List.mem_cons_of_mem name hn),
        components_join h hname, List.map_cons, List.append_assoc, List.singleton_append]

theorem Path.componentsLe_append (cs as bs : List Component) :
    componentsLe (cs ++ as) (cs ++ bs) = componentsLe as bs := by
  induction cs with
  | nil => rfl
  | cons c cs ih =>
      have hself : c.before c = false := by
        rw [Bool.eq_false_iff]
        intro hbefore
        rcases Component.before_iff.mp hbefore with hlt | ⟨-, hlt⟩
        · exact Nat.lt_irrefl _ hlt
        · exact String.lt_irrefl _ hlt
      simp [componentsLe, hself, ih]

def namesLe (as bs : List String) : Bool :=
  Path.componentsLe (as.map .name) (bs.map .name)

theorem Path.le_below {as bs : List String} (h : base.text ≠ "") (has : ∀ name ∈ as, IsName name)
    (hbs : ∀ name ∈ bs, IsName name) : namesLe as bs = (base.below as).le (base.below bs) := by
  rw [Path.le, components_below h has, components_below h hbs, componentsLe_append]
  rfl

/-- The files that a search finds below a place, by their names and in order. -/
def FileSystem.sortedNames (fs : FileSystem) (f : FileFilter) (place : Location) :
    List (List String) :=
  (fs.namesBelow f (fs.entries.length + 1) place).mergeSort namesLe

theorem FileSystem.findFiles_of_checkPath (h : checkPath base ≠ .ok ()) :
    fs.findFiles f base = [] := by
  have habsent : ¬ fs.present base := by
    intro hpresent
    obtain ⟨l, e, hstat⟩ := present_iff.mp hpresent
    exact h (resolve_eq_ok_iff.mp (stat_eq_ok_iff.mp hstat)).1
  rw [(Finds.absent habsent).findFiles_eq, List.mergeSort_nil]

/-- A search gives the same files in the same order under every path of a folder from which each of
them can be named. -/
theorem FileFilter.Reaches.findFiles_eq (h : f.Reaches fs base place) (hfs : fs.WellFormed)
    (hne : base.text ≠ "") (hleads : fs.Leads base place) :
    fs.findFiles f base = (fs.sortedNames f place).map base.below := by
  have hfound : fs.findFiles f base =
      (fs.filesBelow f (fs.entries.length + 1) base place).mergeSort Path.le := by
    by_cases hcheck : checkPath base = .ok ()
    · exact (Finds.folder (hleads hcheck)).findFiles_eq
    · rw [findFiles_of_checkPath hcheck, hfs.filesBelow_eq,
        if_pos (checkPath_isNone_iff.mpr hcheck), List.mergeSort_nil]
  have hnames : ∀ {names}, names ∈ fs.namesBelow f (fs.entries.length + 1) place →
      ∀ n ∈ names, IsName n := by
    intro names hmem n hn
    obtain ⟨-, bytes, runnable, hget⟩ := looksAt_of_mem_namesBelow hmem
    exact hfs.isName_of_mem hget n (by simp [hn])
  rw [hfound, h.filesBelow_eq hfs hne, FileSystem.sortedNames]
  symm
  apply List.map_mergeSort
  intro as has bs hbs
  exact Path.le_below hne (hnames has) (hnames hbs)

/-- A file that is found stands for the same under every such path. -/
theorem FileFilter.Reaches.stat_eq (h : f.Reaches fs base place) (hfs : fs.WellFormed)
    (hbase : base.text ≠ "") (hleads : fs.Leads base place)
    (hmem : names ∈ fs.sortedNames f place) :
    ∃ bytes runnable, fs.get? (names.reverse ++ place) = some (.file bytes runnable) ∧
      fs.stat (base.below names) = .ok (names.reverse ++ place, .file bytes runnable) := by
  obtain ⟨hl, bytes, runnable, hget⟩ := looksAt_of_mem_namesBelow (List.mem_mergeSort.mp hmem)
  have hcheck := h names bytes runnable hl hget
  have hall := hfs.isName_of_mem hget
  have hstat := hleads (checkPath_of_below hbase (fun n hn => hall n (by simp [hn])) hcheck)
  exact ⟨bytes, runnable, hget, hfs.stat_below hstat hget (by rintro t ⟨⟩) hcheck⟩

end Docset
