import Docset.Proofs.Files.Copy
import Docset.Proofs.Files.Spelling

/-!
# Paths that stay inside a folder

Seen from a folder below which there are no links, a path without `..` leads to the place
that its steps spell from there on, and to no other. A file is named by such a path exactly
if the steps are its names and the path ends with the last of them: a slash or a dot after
the name of a file asks for a folder.
-/
namespace Docset

open FileSystem

variable {fs : FileSystem} {purpose : Purpose} {place dest inner l : Location} {e : Entry}
  {s : Stretch Target} {name : String} {ps names : List String} {base p q : Path}
  {bytes : ByteArray} {runnable : Bool}

/-! ## Joined paths -/

theorem Path.isAbsolute_join_relative (hp : p.isAbsolute = false) (hne : p.text ≠ "")
    (hq : q.isAbsolute = false) : (p.join q).isAbsolute = false := by
  rw [Path.isAbsolute_join_of_relative hne hq, hp]

theorem Path.exists_join_eq (p : Path) :
    ∃ before, ∀ q : Path, q.isAbsolute = false → p.join q = ⟨before ++ q.text⟩ := by
  by_cases hend : p.text = "" ∨ p.text.toList.getLast? = some '/'
  · refine ⟨p.text, fun q hq => ?_⟩
    simp [join, hq, hend]
  · refine ⟨p.text ++ "/", fun q hq => ?_⟩
    simp [join, hq, hend]

theorem Path.join_assoc {r : Path} (hq : q.isAbsolute = false) (hne : q.text ≠ "")
    (hr : r.isAbsolute = false) : (p.join q).join r = p.join (q.join r) := by
  obtain ⟨before, hbefore⟩ := p.exists_join_eq
  rw [hbefore q hq, hbefore _ (Path.isAbsolute_join_relative hq hne hr)]
  -- Both ways it depends on the end of the path in the middle whether a slash comes next.
  have hlast : (before ++ q.text).toList.getLast? = q.text.toList.getLast? := by
    have hnil : q.text.toList ≠ [] := by simpa using hne
    rw [String.toList_append, List.getLast?_append_of_ne_nil _ hnil]
  have hempty : before ++ q.text ≠ "" := fun h => hne (String.append_eq_empty_iff.mp h).2
  by_cases hslash : q.text.toList.getLast? = some '/'
  · simp only [join, hr, hlast, hslash, or_true, if_true, Bool.false_eq_true, if_false,
      String.append_assoc]
  · simp only [join, hr, hlast, hslash, hne, hempty, or_self, Bool.false_eq_true, if_false,
      String.append_assoc]

theorem Path.below_concat (base : Path) (names : List String) (name : String) :
    base.below (names ++ [name]) = (base.below names).join ⟨name⟩ := by
  simp [below]

theorem Path.pieces_join_of_getLast? {last : String} (hlast : q.pieces.getLast? = some last)
    (hne : last ≠ "") (hslash : '/' ∉ name.toList) :
    q.text ≠ "" ∧ (q.join ⟨name⟩).pieces = q.pieces ++ [name] := by
  have hqne : q.text ≠ "" := by
    intro hempty
    have hpath : q = ⟨""⟩ := by
      cases q
      exact congrArg Path.mk hempty
    rw [hpath, Path.pieces_empty] at hlast
    exact hne (Option.some.inj hlast).symm
  obtain ⟨ps, blanks, hps, hblanks, hjoin⟩ := Path.pieces_join hqne hslash
  refine ⟨hqne, ?_⟩
  rw [hjoin, hps]
  -- There are no empty pieces at the end to give way.
  rcases List.eq_nil_or_concat blanks with rfl | ⟨blanks, blank, rfl⟩
  · rw [List.append_nil]
  · rw [hps, List.concat_eq_append, ← List.append_assoc, List.getLast?_concat] at hlast
    exact absurd (hblanks blank (by simp)) (Option.some.inj hlast ▸ hne)

theorem Path.below_eq_join (hne : names ≠ []) (hnames : ∀ name ∈ names, IsName name)
    (base : Path) :
    ∃ q : Path, q.isAbsolute = false ∧ q.pieces = names ∧ base.below names = base.join q := by
  induction names using List.reverseRecOn with
  | nil => exact absurd rfl hne
  | append_singleton names name ih =>
      have hname : IsName name := hnames name (by simp)
      have habs := Path.isAbsolute_of_slash_notMem hname.2.1
      rcases List.eq_nil_or_concat names with rfl | ⟨inits, last, rfl⟩
      · exact ⟨⟨name⟩, habs, Path.pieces_of_slash_notMem hname.2.1, rfl⟩
      · obtain ⟨q, hq, hpieces, hbelow⟩ := ih (by simp) fun n hn =>
          hnames n (List.mem_append_left _ hn)
        have hlast : IsName last := hnames last (by simp)
        obtain ⟨hqne, hjoin⟩ :=
          Path.pieces_join_of_getLast? (q := q) (by simp [hpieces]) hlast.1.1 hname.2.1
        refine ⟨q.join ⟨name⟩, Path.isAbsolute_join_relative hq hqne habs, ?_, ?_⟩
        · rw [hjoin, hpieces]
        · rw [Path.below_concat, hbelow, Path.join_assoc hq hqne habs]

/-! ## Where such paths lead -/

/-- A path that does not lead out of the folder that it is seen from, links apart. -/
def Path.Inner (q : Path) : Prop := q.isAbsolute = false ∧ ".." ∉ q.pieces

instance (q : Path) : Decidable q.Inner := inferInstanceAs (Decidable (_ ∧ _))

/-- The pieces that lead somewhere. -/
def steps (ps : List String) : List String := ps.filter fun piece => piece ≠ "" ∧ piece ≠ "."

theorem steps_cons_of_idle {piece : String} (h : piece = "" ∨ piece = ".") :
    steps (piece :: ps) = steps ps := by
  rcases h with rfl | rfl
  · rfl
  · rfl

theorem steps_cons_of_named {piece : String} (h : piece ≠ "" ∧ piece ≠ ".") :
    steps (piece :: ps) = piece :: steps ps := by
  simp [steps, h]

/-- If a path ends with a step, no idle pieces come after it. -/
theorem eq_nil_of_steps_eq_nil {piece : String} (hsteps : steps ps = [])
    (hlast : (piece :: ps).getLast? = some piece) (hpiece : piece ≠ "" ∧ piece ≠ ".") :
    ps = [] := by
  cases ps with
  | nil => rfl
  | cons next rest =>
      rw [List.getLast?_cons_cons] at hlast
      have hmem : piece ∈ steps (next :: rest) :=
        List.mem_filter.mpr ⟨List.mem_of_getLast? hlast, by simpa using hpiece⟩
      rw [hsteps] at hmem
      cases hmem

namespace FileSystem

def Linkless (fs : FileSystem) (place : Location) : Prop :=
  ∀ names t, fs.get? (names ++ place) ≠ some (.link t)

theorem Linkless.cons (h : fs.Linkless place) (name : String) : fs.Linkless (name :: place) :=
  fun names t => by simpa using h (names ++ [name]) t

theorem Ready.linkless {path target : Path} (hr : Ready fs path place target dest) :
    fs.Linkless dest := fun names t hget => by
  have : Entry.copied (.link t) := hr.plain names hget
  cases this

theorem Linkless.grows {P : Location → Prop} {after : FileSystem} (h : fs.Linkless dest)
    (hgrows : Grows P fs after) : after.Linkless dest := fun names t hget => by
  rcases hgrows.copied hget with hold | hcopied
  · exact h names t hold
  · cases hcopied

/-- Without `..` and links a way leads where its steps say. -/
theorem Linkless.walk (h : fs.Linkless place) (hdots : ".." ∉ ps)
    (hwalk : Walk fs purpose place ps s) :
    ∃ t, s = .whole t ∧ ∀ l e, t = .found l e → l = (steps ps).reverse ++ place := by
  induction hwalk with
  | done hget =>
      refine ⟨_, rfl, ?_⟩
      rintro l e ⟨⟩
      rfl
  | idle hfolder hidle _ ih =>
      rw [steps_cons_of_idle hidle]
      exact ih h fun hmem => hdots (List.mem_cons_of_mem _ hmem)
  | up => exact absurd List.mem_cons_self hdots
  | missing => exact ⟨_, rfl, by rintro l e ⟨⟩⟩
  | itself _ hlink => exact absurd hlink (h [_] _)
  | turn _ hlink => exact absurd hlink (h [_] _)
  | into hnamed _ _ _ ih =>
      obtain ⟨t, rfl, ht⟩ := ih (h.cons _) fun hmem => hdots (List.mem_cons_of_mem _ hmem)
      refine ⟨t, rfl, fun l e heq => ?_⟩
      rw [ht l e heq, steps_cons_of_named ⟨hnamed.ne_empty, hnamed.ne_dot⟩]
      simp

/-- A path without `..` stays inside a folder below which there are no links. -/
theorem Linkless.walk_of_stat_join (h : fs.Linkless dest) (hp : fs.stat p = .ok (dest, .folder))
    (hq : q.Inner) (hstat : fs.stat (p.join q) = .ok (l, e)) :
    Walk fs .followed dest q.pieces (.whole (.found l e)) := by
  have hresolve := stat_eq_ok_iff.mp hstat
  obtain ⟨left, hleft⟩ :=
    resolve_join_of_relative hp hq.1 (.inl rfl) (resolve_eq_ok_iff.mp hresolve).1
  rw [hresolve] at hleft
  have hwhole : ∀ {s}, fs.stretch .followed dest q.pieces = .ok s → ∃ t, s = .whole t :=
    fun hgo => (h.walk hq.2 (walk_of_stretch hgo)).imp fun _ ht => ht.1
  cases hgo : fs.stretch .followed dest q.pieces with
  | error err =>
      cases left with
      | zero => simp [follow, hgo] at hleft
      | succ left => simp [follow, hgo] at hleft
  | ok s =>
      obtain ⟨t, rfl⟩ := hwhole hgo
      rw [follow_of_whole hgo] at hleft
      cases hleft
      exact walk_of_stretch hgo

theorem Linkless.eq_of_stat_join (h : fs.Linkless dest) (hp : fs.stat p = .ok (dest, .folder))
    (hq : q.Inner) (hstat : fs.stat (p.join q) = .ok (l, e)) :
    l = (steps q.pieces).reverse ++ dest := by
  obtain ⟨t, ht, hplace⟩ := h.walk hq.2 (h.walk_of_stat_join hp hq hstat)
  cases ht
  exact hplace l e rfl

theorem Linkless.suffix_of_stat_below (h : fs.Linkless dest)
    (hp : fs.stat p = .ok (dest, .folder)) (hnames : ∀ name ∈ names, IsName name)
    (hstat : fs.stat (p.below names) = .ok (l, e)) : dest <:+ l := by
  by_cases hnil : names = []
  · subst hnil
    rw [show p.below [] = p from rfl, hp] at hstat
    cases hstat
    exact List.suffix_refl _
  · obtain ⟨q, hq, hpieces, hbelow⟩ := Path.below_eq_join hnil hnames p
    rw [hbelow] at hstat
    have hdots : ".." ∉ q.pieces := fun hmem => (hnames _ (hpieces ▸ hmem)).1.2.2 rfl
    rw [h.eq_of_stat_join hp ⟨hq, hdots⟩ hstat]
    exact List.suffix_append _ _

/-! ## Files and the paths that name them -/

theorem Walk.getLast?_of_file (hdots : ".." ∉ ps)
    (h : Walk fs purpose place ps (.whole (.found l (.file bytes runnable)))) (hps : ps ≠ []) :
    ps.getLast? = l.head? := by
  generalize hs : Stretch.whole (Target.found l (.file bytes runnable)) = t at h
  induction h with
  | done => exact absurd rfl hps
  | @idle place piece rest s hfolder _ hrest ih =>
      cases rest with
      | nil =>
          cases hs
          cases hrest with
          | done hget =>
              rw [hfolder] at hget
              cases hget
      | cons next rest =>
          rw [List.getLast?_cons_cons]
          exact ih (fun hmem => hdots (List.mem_cons_of_mem _ hmem)) (by simp) hs
  | up => exact absurd List.mem_cons_self hdots
  | missing => cases hs
  | itself => cases hs
  | turn => cases hs
  | @into place piece rest e s _ _ _ hrest ih =>
      cases rest with
      | nil =>
          cases hs
          cases hrest
          rfl
      | cons next rest =>
          rw [List.getLast?_cons_cons]
          exact ih (fun hmem => hdots (List.mem_cons_of_mem _ hmem)) (by simp) hs

theorem WellFormed.walk_of_steps (hfs : fs.WellFormed)
    (hget : fs.get? (inner ++ place) = some (.file bytes runnable))
    (hfolder : fs.get? place = some .folder) (hdots : ".." ∉ ps)
    (hsteps : steps ps = inner.reverse) (hlast : ps.getLast? = inner.head?) :
    Walk fs .followed place ps (.whole (.found (inner ++ place) (.file bytes runnable))) := by
  induction ps generalizing place inner with
  | nil =>
      have hnil : inner = [] := by simpa [steps] using hsteps.symm
      subst hnil
      rw [List.nil_append, hfolder] at hget
      cases hget
  | cons piece rest ih =>
      have hdots' : ".." ∉ rest := fun hmem => hdots (List.mem_cons_of_mem _ hmem)
      by_cases hidle : piece = "" ∨ piece = "."
      · rw [steps_cons_of_idle hidle] at hsteps
        refine .idle hfolder hidle (ih hget hfolder hdots' hsteps ?_)
        cases rest with
        | nil =>
            have hnil : inner = [] := by simpa [steps] using hsteps.symm
            subst hnil
            cases hlast
        | cons next rest => rwa [List.getLast?_cons_cons] at hlast
      · rw [not_or] at hidle
        rw [steps_cons_of_named hidle] at hsteps
        have hinner : inner = (steps rest).reverse ++ [piece] := by
          rw [← List.reverse_cons, hsteps, List.reverse_reverse]
        subst hinner
        rw [List.append_assoc, List.singleton_append] at hget ⊢
        have hname : IsName piece := hfs.isName_of_mem hget piece (by simp)
        have hnamed : Named fs .followed place piece rest := named_of_fits hname hfolder (by simp)
        cases hrest : steps rest with
        | nil =>
            rw [hrest, List.reverse_nil, List.nil_append] at hget hlast
            have hnil := eq_nil_of_steps_eq_nil hrest hlast hidle
            subst hnil
            exact .into hnamed hget (by rintro t ⟨⟩) (.done hget)
        | cons next names =>
            have hne : (steps rest).reverse ≠ [] := by simp [hrest]
            have hinto := hfs.get?_append _ hne (by rw [hget]; rfl)
            rw [← hrest]
            refine .into hnamed hinto (by rintro t ⟨⟩)
              (ih hget hinto hdots' (List.reverse_reverse _).symm ?_)
            cases rest with
            | nil => cases hrest
            | cons piece' rest =>
                rw [List.getLast?_cons_cons] at hlast
                rw [hlast, List.head?_append_of_ne_nil _ hne]

end FileSystem

/-- A path names a place below a folder: its steps lead there, and it ends with the last name. -/
def Path.Names (q : Path) (inner : Location) : Prop :=
  steps q.pieces = inner.reverse ∧ q.pieces.getLast? = inner.head?

instance (q : Path) (inner : Location) : Decidable (q.Names inner) :=
  inferInstanceAs (Decidable (_ ∧ _))

/-- A file inside a folder is found by the paths that name it. -/
theorem FileSystem.Linkless.stat_join_file_iff (h : fs.Linkless dest) (hfs : fs.WellFormed)
    (hp : fs.stat p = .ok (dest, .folder)) (hq : q.Inner)
    (hcheck : checkPath (p.join q) = .ok ()) :
    fs.stat (p.join q) = .ok (inner ++ dest, .file bytes runnable) ↔
      q.Names inner ∧ fs.get? (inner ++ dest) = some (.file bytes runnable) := by
  have hfolder := get?_of_resolve (stat_eq_ok_iff.mp hp)
  constructor
  · intro hstat
    have hget := get?_of_resolve (stat_eq_ok_iff.mp hstat)
    have hsteps := List.append_cancel_right (h.eq_of_stat_join hp hq hstat)
    have hlast := (h.walk_of_stat_join hp hq hstat).getLast?_of_file hq.2 q.pieces_ne_nil
    have hne : inner ≠ [] := by
      rintro rfl
      rw [List.nil_append, hfolder] at hget
      cases hget
    rw [List.head?_append_of_ne_nil _ hne] at hlast
    exact ⟨⟨by rw [hsteps, List.reverse_reverse], hlast⟩, hget⟩
  · rintro ⟨⟨hsteps, hlast⟩, hget⟩
    obtain ⟨left, hleft⟩ := resolve_join_of_relative hp hq.1 (.inl rfl) hcheck
    refine stat_eq_ok_iff.mpr (hleft.trans ?_)
    exact follow_of_whole (hfs.walk_of_steps hget hfolder hq.2 hsteps hlast).stretch_eq left

end Docset
