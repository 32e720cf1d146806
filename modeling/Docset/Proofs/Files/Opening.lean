import Docset.Proofs.Files.Canonical
import Docset.Proofs.Files.Writing
import Mathlib.Algebra.GroupWithZero.Nat

/-!
# Opening a folder

A folder that is missing is made after the folders around it. Which these are is read off the
text of its path: the path without its last component stands for the folder around. That is
the folder in which the new one turns up as long as the path goes on by names beyond the
folders that are there. Then everything that is missing is made, one folder inside the other,
and nothing else changes.
-/
namespace Docset

open FileSystem

variable {fs mid after : FileSystem} {purpose : Purpose} {place dest l : Location}
  {name : String} {ps qs : List String} {p q : Path}

/-! ## The path around a path -/

def Idle (piece : String) : Prop := piece = "" ∨ piece = "."

theorem Text.sum_length_splitAux (separates : Char → Bool) (cs : List Char) :
    ∀ (word : List Char) (parts : List (List Char)),
      ((splitAux separates word parts cs).map (·.length + 1)).sum =
        (parts.map (·.length + 1)).sum + (word.length + cs.length + 1) := by
  induction cs with
  | nil =>
      intro word parts
      simp [splitAux]
  | cons c cs ih =>
      intro word parts
      rw [splitAux]
      split
      · rw [ih]
        simp
        omega
      · rw [ih]
        simp
        omega

namespace Path

theorem sum_length_pieces (p : Path) : (p.pieces.map (·.length + 1)).sum = p.text.length + 1 := by
  have hsum := Text.sum_length_splitAux (· = '/') p.text.toList [] []
  unfold pieces Text.split
  rw [List.map_map]
  simpa [Function.comp_def, String.length_toList] using hsum

theorem isAbsolute_iff_pieces : p.isAbsolute ↔ ∃ rest, p.pieces = "" :: rest ∧ rest ≠ [] := by
  constructor
  · intro habs
    obtain ⟨cs, hcs⟩ := List.head?_eq_some_iff.mp (by simpa [isAbsolute] using habs)
    have hp : p = ⟨"" ++ "/" ++ String.ofList cs⟩ := by
      cases p
      rw [Path.mk.injEq, ← String.toList_inj]
      simpa using hcs
    refine ⟨(⟨String.ofList cs⟩ : Path).pieces, ?_, pieces_ne_nil _⟩
    rw [hp, pieces_append_slash]
    rfl
  · rintro ⟨rest, hpieces, hrest⟩
    by_cases hslash : '/' ∈ p.text.toList
    · obtain ⟨before, after, htext, hbefore⟩ := List.eq_append_cons_of_mem hslash
      have hp : p = ⟨String.ofList before ++ "/" ++ String.ofList after⟩ := by
        cases p
        rw [Path.mk.injEq, ← String.toList_inj]
        simpa using htext
      rw [hp, pieces_append_slash, pieces_of_slash_notMem (by simpa using hbefore)] at hpieces
      have hempty : before = [] := by
        simpa using congrArg String.toList (List.cons.inj hpieces).1
      simp [isAbsolute, htext, hempty]
    · have := pieces_of_slash_notMem hslash
      rw [show (⟨p.text⟩ : Path) = p from rfl, hpieces] at this
      exact absurd (List.cons.inj this).2 hrest

theorem innerComponent?_isNone_iff {piece : String} :
    (innerComponent? piece).isNone ↔ Idle piece := by
  unfold innerComponent? Idle
  by_cases hidle : piece = "" ∨ piece = "."
  · simp [hidle]
  · rw [if_neg hidle]
    split <;> simp [hidle]

theorem eq_dropIdle_append (ps : List String) :
    ∃ tail, ps = (dropIdle ps.reverse).reverse ++ tail ∧ ∀ piece ∈ tail, Idle piece := by
  refine ⟨(ps.reverse.takeWhile fun piece => (innerComponent? piece).isNone).reverse, ?_, ?_⟩
  · unfold dropIdle
    rw [← List.reverse_append, List.takeWhile_append_dropWhile, List.reverse_reverse]
  · intro piece hpiece
    have hnone := List.mem_takeWhile_imp (List.mem_reverse.mp hpiece)
    exact innerComponent?_isNone_iff.mp hnone

theorem not_idle_of_dropIdle {x : String} {before : List String} (h : dropIdle ps = x :: before) :
    ¬ Idle x := by
  rw [← innerComponent?_isNone_iff]
  unfold dropIdle at h
  have hne : ps.dropWhile (fun piece => (innerComponent? piece).isNone) ≠ [] := by simp [h]
  have := List.head_dropWhile_not (fun piece => (innerComponent? piece).isNone) hne
  simp only [h, List.head_cons] at this
  simp [this]

/-- The pieces of a path after the first one, cut at the last that is not idle. -/
theorem eq_append_of_dropIdle {x : String} {before rest : List String}
    (h : dropIdle rest.reverse = x :: before) :
    ∃ idle tail, rest = (dropIdle before).reverse ++ (idle ++ x :: tail) ∧
      (∀ piece ∈ idle, Idle piece) ∧ (∀ piece ∈ tail, Idle piece) ∧ x ≠ "" := by
  obtain ⟨tail, hrest, htail⟩ := eq_dropIdle_append rest
  obtain ⟨idle, hbefore, hidle⟩ := eq_dropIdle_append before.reverse
  rw [List.reverse_reverse] at hbefore
  refine ⟨idle, tail, ?_, hidle, htail, fun hx => not_idle_of_dropIdle h (.inl hx)⟩
  rw [h, List.reverse_cons, hbefore] at hrest
  simpa using hrest

/-- How a path goes on from the path around it. -/
structure Extends (p q : Path) (stem idle : List String) (x : String) (tail : List String) :
    Prop where
  pieces : p.pieces = stem ++ (idle ++ x :: tail)
  idle : ∀ piece ∈ idle, Idle piece
  tail : ∀ piece ∈ tail, Idle piece
  ne_empty : x ≠ ""
  isAbsolute : q.isAbsolute = p.isAbsolute
  /-- The beginning is the path around, the current folder or the root. -/
  stem : (stem = q.pieces ∧ q.text ≠ "") ∨ (stem = [] ∧ q = ⟨""⟩) ∨ (stem = [""] ∧ q = ⟨"/"⟩)

theorem Extends.not_all_empty {stem idle tail : List String} {x : String}
    (h : Extends p q stem idle x tail) (rest : List String) :
    ¬ (idle ++ x :: rest).all (· = "") := by
  simp [h.ne_empty]

theorem extends_of_absolute {x : String} {rest before : List String} (habs : p.isAbsolute)
    (hpieces : p.pieces = "" :: rest) (hdrop : dropIdle rest.reverse = x :: before) :
    ∃ stem idle tail,
      Extends p ⟨"/" ++ "/".intercalate (dropIdle before).reverse⟩ stem idle x tail := by
  obtain ⟨idle, tail, hrest, hidle, htail, hne⟩ := eq_append_of_dropIdle hdrop
  have habs' : (⟨"/" ++ "/".intercalate (dropIdle before).reverse⟩ : Path).isAbsolute =
      p.isAbsolute := by
    rw [habs]
    simp [isAbsolute]
  by_cases hroot : dropIdle before = []
  · refine ⟨[""], idle, tail, ?_, hidle, htail, hne, habs', .inr (.inr ⟨rfl, ?_⟩)⟩
    · rw [hpieces, hrest, hroot]
      rfl
    · rw [hroot]
      rfl
  · have hstem : (⟨"/" ++ "/".intercalate (dropIdle before).reverse⟩ : Path).pieces =
        "" :: (dropIdle before).reverse := by
      refine pieces_slash_intercalate (fun piece hpiece => ?_) (by simpa using hroot)
      have hmem : piece ∈ p.pieces := by
        rw [hpieces, hrest]
        exact List.mem_cons_of_mem _ (List.mem_append_left _ hpiece)
      exact slash_notMem_of_mem_pieces hmem
    refine ⟨"" :: (dropIdle before).reverse, idle, tail, ?_, hidle, htail, hne, habs',
      .inl ⟨hstem.symm, by simp⟩⟩
    rw [hpieces, hrest]
    rfl

theorem extends_of_relative {first x : String} {rest before : List String} (habs : ¬ p.isAbsolute)
    (hpieces : p.pieces = first :: rest) (hdrop : dropIdle rest.reverse = x :: before) :
    ∃ stem idle tail,
      Extends p ⟨"/".intercalate (first :: (dropIdle before).reverse)⟩ stem idle x tail := by
  obtain ⟨idle, tail, hrest, hidle, htail, hne⟩ := eq_append_of_dropIdle hdrop
  have hfirst : first ≠ "" := by
    rintro rfl
    exact habs (isAbsolute_iff_pieces.mpr ⟨rest, hpieces, by simp [hrest]⟩)
  have hstem : (⟨"/".intercalate (first :: (dropIdle before).reverse)⟩ : Path).pieces =
      first :: (dropIdle before).reverse := by
    refine pieces_intercalate (fun piece hpiece => ?_) (by simp)
    have hmem : piece ∈ p.pieces := by
      rw [hpieces, hrest, ← List.cons_append]
      exact List.mem_append_left _ hpiece
    exact slash_notMem_of_mem_pieces hmem
  refine ⟨first :: (dropIdle before).reverse, idle, tail, ?_, hidle, htail, hne, ?_,
    .inl ⟨hstem.symm, ?_⟩⟩
  · rw [hpieces, hrest]
    rfl
  · rw [Bool.eq_iff_iff, isAbsolute_iff_pieces, hstem]
    simp [habs, hfirst]
  · intro hempty
    rw [show "/".intercalate (first :: (dropIdle before).reverse) = "" from hempty,
      pieces_empty] at hstem
    exact hfirst (List.cons.inj hstem).1.symm

theorem extends_of_parent? (h : p.parent? = some q) :
    ∃ stem idle x tail, Extends p q stem idle x tail := by
  unfold parent? at h
  split at h
  · cases h
  rename_i first rest hpieces
  split at h
  · rename_i habs
    obtain ⟨rest', hrest', -⟩ := isAbsolute_iff_pieces.mp habs
    obtain ⟨rfl, rfl⟩ := List.cons.inj (hpieces.symm.trans hrest')
    split at h
    · cases h
    rename_i x before hdrop
    cases h
    obtain ⟨stem, idle, tail, hext⟩ := extends_of_absolute habs hpieces hdrop
    exact ⟨stem, idle, x, tail, hext⟩
  · rename_i habs
    split at h
    · rename_i x before hdrop
      cases h
      obtain ⟨stem, idle, tail, hext⟩ := extends_of_relative habs hpieces hdrop
      exact ⟨stem, idle, x, tail, hext⟩
    · rename_i hdrop
      split at h
      · cases h
      · rename_i hfirst
        cases h
        obtain ⟨tail, hrest, htail⟩ := eq_dropIdle_append rest
        rw [hdrop] at hrest
        refine ⟨[], [], first, tail, ?_, by simp, htail, hfirst, ?_, .inr (.inl ⟨rfl, rfl⟩)⟩
        · rw [hpieces, hrest]
          rfl
        · rw [Bool.eq_false_iff.mpr habs]
          rfl

/-- What a path that ends in a name, and maybe slashes, goes on by. -/
theorem Extends.of_getLast? {stem idle tail : List String} {x : String}
    (hext : Extends p q stem idle x tail) (hname : IsName name)
    (hlast : p.withoutEndSlashes.pieces.getLast? = some name) :
    x = name ∧ (∀ piece ∈ tail, piece = "") ∧
      p.withoutEndSlashes.pieces = stem ++ (idle ++ [name]) := by
  obtain ⟨n, hn⟩ := p.pieces_withoutEndSlashes
  obtain ⟨inits, hinits⟩ := List.getLast?_eq_some_iff.mp hlast
  have hcut : (inits ++ [name]) ++ List.replicate n "" = ((stem ++ idle) ++ [x]) ++ tail := by
    rw [← hinits, ← hn, hext.pieces]
    simp
  -- Neither can the path end in an idle piece before the slashes, nor can its last component
  -- be one of the slashes.
  have hsame : inits ++ [name] = (stem ++ idle) ++ [x] ∧ List.replicate n "" = tail := by
    rcases List.append_eq_append_iff.mp hcut with ⟨more, hleft, hright⟩ | ⟨more, hleft, hright⟩
    · rcases List.eq_nil_or_concat more with rfl | ⟨more, y, rfl⟩
      · exact ⟨by simpa using hleft.symm, by simpa using hright⟩
      · rw [List.concat_eq_append, ← List.append_assoc] at hleft
        have hy : x = y := List.singleton_inj.mp (List.append_inj_right' hleft rfl)
        have hmem : y ∈ List.replicate n "" := by simp [hright]
        exact absurd (hy.trans (List.eq_of_mem_replicate hmem)) hext.ne_empty
    · rcases List.eq_nil_or_concat more with rfl | ⟨more, y, rfl⟩
      · exact ⟨by simpa using hleft, by simpa using hright.symm⟩
      · rw [List.concat_eq_append, ← List.append_assoc] at hleft
        have hy : name = y := List.singleton_inj.mp (List.append_inj_right' hleft rfl)
        have hmem : y ∈ tail := by simp [hright]
        rcases hext.tail y hmem with hidle | hidle
        · exact absurd (hy.trans hidle) hname.1.1
        · exact absurd (hy.trans hidle) hname.1.2.1
  obtain ⟨hstem, rfl⟩ := hsame
  have hx : name = x := by simpa using congrArg List.getLast? hstem
  subst hx
  exact ⟨rfl, fun piece hpiece => List.eq_of_mem_replicate hpiece, by simpa [hinits] using hstem⟩

theorem length_lt_of_parent? (h : p.parent? = some q) : q.text.length < p.text.length := by
  obtain ⟨stem, idle, x, tail, hext⟩ := extends_of_parent? h
  have hsum := sum_length_pieces p
  have hsum' := sum_length_pieces q
  have hx : 0 < x.length := by
    rw [Nat.pos_iff_ne_zero]
    simpa using hext.ne_empty
  rw [hext.pieces] at hsum
  simp only [List.map_append, List.map_cons, List.sum_append, List.sum_cons] at hsum
  rcases hext.stem with ⟨hstem, -⟩ | ⟨rfl, rfl⟩ | ⟨rfl, rfl⟩
  · rw [hstem] at hsum
    omega
  · change 0 < _
    simp at hsum
    omega
  · change 1 < _
    simp at hsum
    omega

theorem around_of_length_le {n m : Nat} (hn : p.text.length ≤ n) (hm : p.text.length ≤ m) :
    around n p = around m p := by
  induction n generalizing p m with
  | zero =>
      cases m with
      | zero => rfl
      | succ m =>
          cases h : p.parent? with
          | none => simp [around, h]
          | some q =>
              have := length_lt_of_parent? h
              omega
  | succ n ih =>
      cases h : p.parent? with
      | none =>
          cases m with
          | zero => simp [around, h]
          | succ m => simp [around, h]
      | some q =>
          have hlt := length_lt_of_parent? h
          obtain ⟨k, rfl⟩ : ∃ k, m = k + 1 := ⟨m - 1, by omega⟩
          simp only [around, h]
          exact congrArg (p :: ·) (ih (by omega) (by omega))

theorem ancestors_of_parent? (h : p.parent? = some q) : p.ancestors = p :: q.ancestors := by
  have hlt := length_lt_of_parent? h
  obtain ⟨n, hn⟩ : ∃ n, p.text.length = n + 1 := ⟨p.text.length - 1, by omega⟩
  rw [ancestors, hn, around, h]
  exact congrArg (p :: ·) (around_of_length_le (by omega) (Nat.le_refl _))

end Path

/-! ## Where such a path leads -/

namespace FileSystem

/-- A way that leads nowhere: its last name is missing, or a name before it. -/
def Absent {α : Type} (missing : Location → α) (r : Except IoError α) : Prop :=
  (∃ l, r = .ok (missing l)) ∨ r = .error .notFound

theorem stretch_append_of_absent (hqs : ¬ qs.all (· = ""))
    (h : Absent (fun l => .whole (.missing l)) (fs.stretch .followed place ps)) :
    fs.stretch purpose place (ps ++ qs) = .error .notFound := by
  induction ps generalizing place with
  | nil =>
      obtain ⟨piece, rest, rfl⟩ : ∃ piece rest, qs = piece :: rest := by
        apply List.exists_cons_of_ne_nil
        rintro rfl
        exact hqs rfl
      cases hget : fs.get? place with
      | none => simp [stretch, hget]
      | some e => simp [Absent, stretch, hget] at h
  | cons piece rest ih =>
      have hrest : (rest ++ qs).all (· = "") = false := by
        rw [List.all_append]
        simp [hqs]
      rw [List.cons_append]
      unfold stretch at h ⊢
      cases hget : fs.get? place with
      | none => rfl
      | some e =>
          rw [hget] at h
          cases e with
          | file bytes runnable => simp [Absent] at h
          | link t => simp [Absent] at h
          | void => simp [Absent] at h
          | folder =>
              simp only [hrest, Bool.and_false, Bool.false_eq_true, if_false, reduceCtorEq,
                decide_false, Bool.false_and] at h ⊢
              by_cases hidle : piece = "" ∨ piece = "."
              · rw [if_pos hidle] at h ⊢
                exact ih h
              rw [if_neg hidle] at h ⊢
              by_cases hup : piece = ".."
              · rw [if_pos hup] at h ⊢
                exact ih h
              rw [if_neg hup] at h ⊢
              by_cases hlong : 255 < piece.utf8ByteSize
              · simp [Absent, hlong] at h
              rw [if_neg hlong] at h ⊢
              cases hinner : fs.get? (piece :: place) with
              | none => rfl
              | some e =>
                  rw [hinner] at h
                  cases e with
                  | link t => simp [Absent, detour] at h
                  | file bytes runnable => exact ih h
                  | folder => exact ih h
                  | void => exact ih h

/-- What the first stretch of a way that leads nowhere is. -/
theorem absent_cases {links : Nat}
    (h : Absent .missing (follow (fs.stretch .followed) links place ps)) :
    Absent (fun l => .whole (.missing l)) (fs.stretch .followed place ps) ∨
      ∃ n l more, links = n + 1 ∧ fs.stretch .followed place ps = .ok (.detour l more) ∧
        Absent .missing (follow (fs.stretch .followed) n l more) := by
  cases hgo : fs.stretch .followed place ps with
  | error e =>
      cases links with
      | zero => exact .inl (by simpa [Absent, follow, hgo] using h)
      | succ n => exact .inl (by simpa [Absent, follow, hgo] using h)
  | ok s =>
      cases s with
      | whole t =>
          rw [follow_of_whole hgo] at h
          exact .inl (by simpa [Absent] using h)
      | detour l more =>
          cases links with
          | zero => simp [Absent, follow, hgo] at h
          | succ n =>
              simp only [follow, hgo] at h
              exact .inr ⟨n, l, more, rfl, rfl, h⟩

theorem follow_append_of_absent (purpose : Purpose) {links : Nat} (hqs : ¬ qs.all (· = ""))
    (h : Absent .missing (follow (fs.stretch .followed) links place ps)) :
    follow (fs.stretch purpose) links place (ps ++ qs) = .error .notFound := by
  induction links generalizing place ps with
  | zero =>
      rcases absent_cases h with habsent | ⟨n, l, more, hn, -⟩
      · simp only [follow, stretch_append_of_absent hqs habsent]
      · cases hn
  | succ links ih =>
      rcases absent_cases h with habsent | ⟨n, l, more, hn, hgo, hrest⟩
      · simp only [follow, stretch_append_of_absent hqs habsent]
      · cases hn
        have hgoes : GoesOn purpose qs := .inr hqs
        simp only [follow, ((walk_of_stretch hgo).append_detour hgoes).stretch_eq, ih hrest]

theorem stat_eq_notFound_iff (hcheck : checkPath q = .ok ()) :
    fs.stat q = .error .notFound ↔
      Absent .missing (follow (fs.stretch .followed) 40 (fs.start q) q.pieces) := by
  have hresolve : fs.resolve .followed q =
      follow (fs.stretch .followed) 40 (fs.start q) q.pieces := by
    unfold resolve
    rw [hcheck]
    rfl
  unfold stat lookUp
  rw [hresolve]
  cases follow (fs.stretch .followed) 40 (fs.start q) q.pieces with
  | error e => simp [Absent]
  | ok t =>
      cases t with
      | found l e => simp [Absent]
      | missing l => simp [Absent]

theorem start_withoutEndSlashes (p : Path) : fs.start p.withoutEndSlashes = fs.start p := by
  simp only [start, Path.isAbsolute_withoutEndSlashes]

theorem Walk.idle_append {idle : List String} {s : Stretch Target}
    (hfolder : fs.get? place = some .folder) (hidle : ∀ piece ∈ idle, Idle piece)
    (h : Walk fs purpose place ps s) : Walk fs purpose place (idle ++ ps) s := by
  induction idle with
  | nil => exact h
  | cons piece idle ih =>
      exact .idle hfolder (hidle piece (by simp))
        (ih fun piece' hmem => hidle piece' (List.mem_cons_of_mem _ hmem))

/-- A path leads to a folder; the empty path leads to the current one. -/
def Opened (fs : FileSystem) (p : Path) (place : Location) : Prop :=
  (p.text = "" ∧ place = fs.here ∧ fs.get? fs.here = some .folder) ∨
    fs.stat p = .ok (place, .folder)

/-- A path to a folder that is there, or goes on from one by names of folders that are missing. -/
inductive Opens (fs : FileSystem) : Path → Location → Prop
  | there {p : Path} {place : Location} : fs.Opened p place → Opens fs p place
  | beyond {p q : Path} {place : Location} {name : String} :
      p.parent? = some q → Opens fs q place → IsName name →
      p.withoutEndSlashes.pieces.getLast? = some name → checkPath p = .ok () →
      fs.get? (name :: place) = none → Opens fs p (name :: place)

theorem Opened.get? (h : fs.Opened p place) : fs.get? place = some .folder := by
  rcases h with ⟨-, rfl, hget⟩ | hstat
  · exact hget
  · exact get?_of_resolve (stat_eq_ok_iff.mp hstat)

theorem stat_root : fs.stat ⟨"/"⟩ = .ok ([], .folder) := by
  refine stat_eq_ok_iff.mpr (resolve_eq_ok_iff.mpr ⟨rfl, ?_⟩)
  exact follow_of_whole (.trans (stretch_idle rfl (.inl rfl)) (stretch_idle rfl (.inl rfl))) 40

section Beyond
variable {stem idle tail : List String} {x : String}

/-- The beginning of a path leads to the folder around. -/
theorem Opened.follow_stem (hext : Path.Extends p q stem idle x tail) (h : fs.Opened q place) :
    follow (fs.stretch .followed) 40 (fs.start p) stem = .ok (.found place .folder) := by
  have hstart : fs.start p = fs.start q := by simp only [start, hext.isAbsolute]
  rw [hstart]
  rcases hext.stem with ⟨rfl, hne⟩ | ⟨rfl, rfl⟩ | ⟨rfl, rfl⟩
  · have hstat := h.resolve_left fun hempty => hne hempty.1
    exact (resolve_eq_ok_iff.mp (stat_eq_ok_iff.mp hstat)).2
  · rcases h with ⟨-, rfl, hget⟩ | hstat
    · refine follow_of_whole ?_ 40
      rw [show fs.start ⟨""⟩ = fs.here from rfl, stretch, hget]
    · cases hstat
  · have hstat := h.resolve_left fun hempty => absurd hempty.1 (by decide : "/" ≠ "")
    rw [stat_root] at hstat
    cases hstat
    exact follow_of_whole (stretch_idle rfl (.inl rfl)) 40

theorem absent_stem (hext : Path.Extends p q stem idle x tail) (hcheck : checkPath q = .ok ())
    (h : fs.stat q = .error .notFound) :
    Absent .missing (follow (fs.stretch .followed) 40 (fs.start p) stem) := by
  have hstart : fs.start p = fs.start q := by simp only [start, hext.isAbsolute]
  rw [hstart]
  rcases hext.stem with ⟨rfl, -⟩ | ⟨rfl, rfl⟩ | ⟨rfl, rfl⟩
  · exact (stat_eq_notFound_iff hcheck).mp h
  · cases hcheck
  · rw [stat_root] at h
    cases h

/-- The path of a missing entry of the folder around leads to that entry. -/
theorem Opened.resolve_missing (hext : Path.Extends p q stem idle name tail)
    (h : fs.Opened q place) (hname : IsName name) (hblank : ∀ piece ∈ tail, piece = "")
    (hget : fs.get? (name :: place) = none) :
    Absent .missing (follow (fs.stretch .followed) 40 (fs.start p) p.pieces) ∧
      follow (fs.stretch .itself) 40 (fs.start p) (stem ++ (idle ++ [name])) =
        .ok (.missing (name :: place)) := by
  have hall : tail.all (· = "") := List.all_eq_true.mpr fun piece hpiece => by
    simpa using hblank piece hpiece
  have hmissing : ∀ {purpose : Purpose} {rest : List String}, purpose ≠ .created →
      rest.all (· = "") →
      Walk fs purpose place (idle ++ name :: rest) (.whole (.missing (name :: place))) :=
    fun hpurpose hrest => .idle_append h.get? hext.idle
      (.missing (named_of_fits hname h.get? fun heq => absurd heq hpurpose) hget hrest)
  have hstem := h.follow_stem hext
  constructor
  · obtain ⟨left, hleft⟩ := follow_append (.inr (hext.not_all_empty tail)) hstem
    rw [hext.pieces, hleft]
    exact .inl ⟨_, follow_of_whole (hmissing (by decide) hall).stretch_eq left⟩
  · obtain ⟨left, hleft⟩ := follow_append (.inr (hext.not_all_empty [])) hstem
    rw [hleft]
    exact follow_of_whole (hmissing (by decide) rfl).stretch_eq left

theorem makeFolder_of_absent (hext : Path.Extends p q stem idle x tail)
    (hpieces : p.withoutEndSlashes.pieces = stem ++ (idle ++ [x])) (hcheck : checkPath p = .ok ())
    (hcheck' : checkPath q = .ok ()) (h : fs.stat q = .error .notFound) :
    fs.makeFolder p = .error .notFound := by
  have hfollow := follow_append_of_absent .itself (hext.not_all_empty [])
    (absent_stem hext hcheck' h)
  unfold makeFolder resolve
  rw [hcheck, checkPath_withoutEndSlashes hcheck, start_withoutEndSlashes, hpieces]
  simp only [bind, Except.bind, hfollow]

theorem Opened.makeFolder (hext : Path.Extends p q stem idle name tail) (h : fs.Opened q place)
    (hname : IsName name) (hblank : ∀ piece ∈ tail, piece = "")
    (hpieces : p.withoutEndSlashes.pieces = stem ++ (idle ++ [name]))
    (hcheck : checkPath p = .ok ()) (hget : fs.get? (name :: place) = none) :
    fs.makeFolder p = .ok (fs.put (name :: place) .folder) ∧
      fs.Touch (name :: place) .folder ∧
      (fs.put (name :: place) .folder).stat p = .ok (name :: place, .folder) := by
  have hmissing : fs.resolve .itself p.withoutEndSlashes = .ok (.missing (name :: place)) := by
    refine resolve_eq_ok_iff.mpr ⟨checkPath_withoutEndSlashes hcheck, ?_⟩
    rw [start_withoutEndSlashes, hpieces]
    exact (h.resolve_missing hext hname hblank hget).2
  have htouch : fs.Touch (name :: place) .folder := .folder (free_of_resolve hmissing)
  exact ⟨makeFolder_eq_ok_iff.mpr ⟨hcheck, _, hmissing, rfl⟩, htouch,
    htouch.keeps.stat_made hcheck hmissing (by simp [get?_put])⟩

end Beyond

end FileSystem

/-- How folders are made along a path: all that are missing, and nothing else. -/
theorem makeFolders_of_opens (h : fs.Opens p dest) :
    ∃ after, makeFolders p fs = .ok () after ∧ after.Opened p dest ∧
      Grows (fun l => l <:+ dest ∧ fs.get? l = none) fs after ∧
      (after = fs ∨ checkPath p = .ok () ∧ fs.stat p = .error .notFound) := by
  induction h with
  | there hopened =>
      refine ⟨fs, makeFolders_of_isFolder ?_, hopened, .refl fs, .inl rfl⟩
      exact hopened.imp (·.1) fun hstat => isFolder_iff.mpr ⟨_, hstat⟩
  | @beyond p q place name hparent _ hname hlast hcheck hget ih =>
      obtain ⟨mid, hmid, hopened, hgrows, hbefore⟩ := ih
      obtain ⟨stem, idle, x, tail, hext⟩ := Path.extends_of_parent? hparent
      obtain ⟨rfl, hblank, hpieces⟩ := hext.of_getLast? hname hlast
      have hgetMid : mid.get? (x :: place) = none := by
        rw [hgrows.get?_eq, hget]
        rintro ⟨hsuffix, -⟩
        have hlength := hsuffix.length_le
        rw [List.length_cons] at hlength
        omega
      obtain ⟨hmade, htouch, hstat⟩ :=
        hopened.makeFolder hext hname hblank hpieces hcheck hgetMid
      refine ⟨mid.put (x :: place) .folder, ?_, .inr hstat, ?_, .inr ⟨hcheck, ?_⟩⟩
      · have hne : p.text ≠ "" := (checkPath_eq_ok_iff.mp hcheck).2.1
        unfold makeFolders at hmid ⊢
        rw [Path.ancestors_of_parent? hparent, makeAll]
        simp only [hne, if_false]
        rcases hbefore with rfl | ⟨hcheck', habsent⟩
        · rw [hmade]
        · simp only [makeFolder_of_absent hext hpieces hcheck hcheck' habsent, hmid, hmade]
      · refine (hgrows.mono ?_).step htouch ⟨List.suffix_refl _, hget⟩
        rintro l ⟨hsuffix, hnone⟩
        exact ⟨hsuffix.trans (List.suffix_cons x place), hnone⟩
      · rw [stat_eq_notFound_iff hcheck]
        rcases hbefore with rfl | ⟨hcheck', habsent⟩
        · exact (hopened.resolve_missing hext hname hblank hgetMid).1
        · rw [hext.pieces]
          exact .inr (follow_append_of_absent _ (hext.not_all_empty tail)
            (absent_stem hext hcheck' habsent))

end Docset
