import Docset.Proofs.Files.Lookup
import Docset.Proofs.Text.Words

/-!
# Absolute paths

The absolute path of a folder is made of the names around it, and none of those is a link.
So a way that starts with the absolute path of a folder goes on from that folder. Where a
path is made absolute and where it is looked up, the same links are followed; a longer path
therefore leads to the same place if its beginning is made absolute first, and it needs no
more links than before.
-/
namespace Docset

variable {fs : FileSystem} {purpose : FileSystem.Purpose} {place l : Location} {e : Entry}
  {name : String} {ps qs blanks : List String} {p q : Path}

/-! ## The pieces of absolute paths -/

theorem Location.isAbsolute_path (l : Location) : l.path.isAbsolute = true := by
  simp [Location.path, Path.isAbsolute]

theorem Path.pieces_intercalate (hps : ∀ piece ∈ ps, '/' ∉ piece.toList) (hne : ps ≠ []) :
    (⟨"/".intercalate ps⟩ : Path).pieces = ps := by
  have hsplit : Text.split (· = '/') ("/".intercalate ps).toList = ps.map String.toList := by
    rw [String.toList_intercalate]
    apply Text.split_intercalate (s := '/') (by decide) (by simpa using hne)
    intro part hpart c hc
    obtain ⟨piece, hpiece, rfl⟩ := List.mem_map.mp hpart
    rw [decide_eq_false_iff_not]
    intro heq
    exact hps piece hpiece (heq ▸ hc)
  unfold Path.pieces
  rw [hsplit, List.map_map]
  simp

theorem Path.pieces_slash_intercalate (hps : ∀ piece ∈ ps, '/' ∉ piece.toList) (hne : ps ≠ []) :
    (⟨"/" ++ "/".intercalate ps⟩ : Path).pieces = "" :: ps := by
  have htext : "/" ++ "/".intercalate ps = "" ++ "/" ++ "/".intercalate ps := by simp
  rw [htext, Path.pieces_append_slash, Path.pieces_intercalate hps hne]
  rfl

theorem Location.pieces_path (hl : ∀ name ∈ l, '/' ∉ name.toList) (hne : l ≠ []) :
    l.path.pieces = "" :: l.reverse :=
  Path.pieces_slash_intercalate (fun name hname => hl name (List.mem_reverse.mp hname))
    (by simpa using hne)

/-- A path seen from a place has the names of the place before its own pieces. -/
theorem Location.pieces_path_join (hl : ∀ name ∈ l, '/' ∉ name.toList ∧ name ≠ "")
    (hq : q.isAbsolute = false) : (l.path.join q).pieces = "" :: (l.reverse ++ q.pieces) := by
  cases l with
  | nil =>
      have hjoin : (Location.path []).join q = ⟨"" ++ "/" ++ q.text⟩ := by
        simp [Location.path, Path.join, hq]
      rw [hjoin, Path.pieces_append_slash]
      rfl
  | cons name around =>
      have hpieces := Location.pieces_path (fun n hn => (hl n hn).1) (List.cons_ne_nil name around)
      have hne : (Location.path (name :: around)).text ≠ "" := by simp [Location.path]
      have hlast : (Location.path (name :: around)).text.toList.getLast? ≠ some '/' := by
        intro hlast
        obtain ⟨before, hbefore⟩ := Path.eq_append_slash hlast
        have hslash := Path.pieces_append_slash before ""
        rw [String.append_empty, ← hbefore, hpieces, List.reverse_cons,
          ← List.cons_append] at hslash
        have hname := List.append_inj_right' hslash rfl
        exact (hl name List.mem_cons_self).2 (List.singleton_inj.mp hname)
      have hjoin : (Location.path (name :: around)).join q =
          ⟨(Location.path (name :: around)).text ++ "/" ++ q.text⟩ := by
        unfold Path.join
        rw [if_neg (by simp [hq]), if_neg (by simp [hne, hlast])]
      rw [hjoin, Path.pieces_append_slash]
      exact congrArg (· ++ q.pieces) hpieces

namespace FileSystem

theorem WellFormed.isName_of_mem (hfs : fs.WellFormed) (h : fs.get? l = some e) :
    ∀ name ∈ l, IsName name := by
  induction l generalizing e with
  | nil => simp
  | cons name around ih =>
      obtain ⟨hname, hfolder⟩ := hfs.placed_of_get? (List.cons_ne_nil name around) h
      intro n hn
      rcases List.mem_cons.mp hn with rfl | hn
      · exact hname
      · exact ih hfolder n hn

/-! ## Ways that start at the root -/

theorem stretch_idle {piece : String} (h : fs.get? place = some .folder)
    (hpiece : piece = "" ∨ piece = ".") :
    fs.stretch purpose place (piece :: ps) = fs.stretch purpose place ps := by
  rw [stretch, h]
  simp only [hpiece, if_true]

theorem stretch_of_idle (h : fs.get? place = some .folder)
    (hps : ∀ piece ∈ ps, piece = "" ∨ piece = ".") :
    fs.stretch purpose place ps = .ok (.whole (.found place .folder)) := by
  induction ps with
  | nil => rw [stretch, h]
  | cons piece ps ih =>
      rw [stretch_idle h (hps piece List.mem_cons_self)]
      exact ih fun q hq => hps q (List.mem_cons_of_mem piece hq)

theorem stat_of_idle (h : fs.get? fs.here = some .folder) (habs : p.isAbsolute = false)
    (hp : ∀ piece ∈ p.pieces, piece = "" ∨ piece = ".") (hcheck : checkPath p = .ok ()) :
    fs.stat p = .ok (fs.here, .folder) := by
  have hstart : fs.start p = fs.here := by simp [start, habs]
  refine stat_eq_ok_iff.mpr (resolve_eq_ok_iff.mpr ⟨hcheck, ?_⟩)
  rw [hstart]
  exact follow_of_whole (stretch_of_idle h hp) 40

theorem stretch_into (hpurpose : purpose ≠ .created) (h : fs.get? place = some .folder)
    (hname : IsName name) (hget : fs.get? (name :: place) = some e) (he : ∀ t, e ≠ .link t) :
    fs.stretch purpose place (name :: ps) = fs.stretch purpose (name :: place) ps := by
  rw [stretch, h]
  simp only [hname.1.1, hname.1.2.1, hname.1.2.2, hpurpose, or_self, if_false, decide_false,
    Bool.false_and, Bool.false_eq_true, Nat.not_lt.mpr hname.2.2, hget]

theorem WellFormed.stretch_reverse (hfs : fs.WellFormed) (hpurpose : purpose ≠ .created)
    (h : fs.get? l = some .folder) :
    fs.stretch purpose [] (l.reverse ++ qs) = fs.stretch purpose l qs := by
  induction l generalizing qs with
  | nil => rfl
  | cons name around ih =>
      obtain ⟨hname, hfolder⟩ := hfs.placed_of_get? (List.cons_ne_nil name around) h
      rw [List.reverse_cons, List.append_assoc, List.singleton_append, ih hfolder,
        stretch_into hpurpose hfolder hname h (by rintro t ⟨⟩)]

section Follow
variable {α : Type} {go : Location → List String → Except IoError (Stretch α)} {t : α} {links : Nat}

/-- What the first stretch of a way to `t` is. -/
theorem follow_cases (h : follow go links place ps = .ok t) :
    go place ps = .ok (.whole t) ∨ ∃ n l more, links = n + 1 ∧
      go place ps = .ok (.detour l more) ∧ follow go n l more = .ok t := by
  cases links with
  | zero =>
      unfold follow at h
      split at h
      · rename_i hgo
        cases h
        exact .inl hgo
      · cases h
      · cases h
  | succ n =>
      unfold follow at h
      split at h
      · rename_i hgo
        cases h
        exact .inl hgo
      · rename_i l more hgo
        exact .inr ⟨n, l, more, rfl, hgo, h⟩
      · cases h

theorem stretch_of_follow (h : follow go links place ps = .ok t) : ∃ s, go place ps = .ok s := by
  rcases follow_cases h with hgo | ⟨_, _, _, -, hgo, -⟩
  · exact ⟨_, hgo⟩
  · exact ⟨_, hgo⟩

theorem follow_congr {place' : Location} {ps' : List String} (h : go place ps = go place' ps') :
    follow go links place ps = follow go links place' ps' := by
  cases links with
  | zero => simp only [follow, h]
  | succ n => simp only [follow, h]

theorem follow_succ (h : follow go links place ps = .ok t) :
    follow go (links + 1) place ps = .ok t := by
  induction links generalizing place ps with
  | zero =>
      rcases follow_cases h with hgo | ⟨n, l, more, hn, -⟩
      · exact follow_of_whole hgo _
      · cases hn
  | succ n ih =>
      rcases follow_cases h with hgo | ⟨m, l, more, hm, hgo, hrest⟩
      · exact follow_of_whole hgo _
      · cases hm
        have hmore := ih hrest
        unfold follow
        rw [hgo]
        exact hmore

end Follow

theorem WellFormed.resolve_path_join (hfs : fs.WellFormed) (hpurpose : purpose ≠ .created)
    (h : fs.get? l = some .folder) (hq : q.isAbsolute = false)
    (hcheck : checkPath (l.path.join q) = .ok ()) :
    fs.resolve purpose (l.path.join q) = follow (fs.stretch purpose) 40 l q.pieces := by
  have hnames := hfs.isName_of_mem h
  have hpieces := Location.pieces_path_join (fun n hn => ⟨(hnames n hn).2.1, (hnames n hn).1.1⟩) hq
  have hne : l.path.text ≠ "" := by simp [Location.path]
  have hstart : fs.start (l.path.join q) = [] := by
    simp [start, Path.isAbsolute_join_of_relative hne hq, Location.isAbsolute_path]
  have hstretch : fs.stretch purpose [] ("" :: (l.reverse ++ q.pieces)) =
      fs.stretch purpose l q.pieces := by
    rw [stretch_idle rfl (.inl rfl), hfs.stretch_reverse hpurpose h]
  unfold resolve
  rw [hcheck, hstart, hpieces]
  exact follow_congr hstretch

theorem WellFormed.stat_path (hfs : fs.WellFormed) (h : fs.get? l = some .folder)
    (hcheck : checkPath l.path = .ok ()) : fs.stat l.path = .ok (l, .folder) := by
  have hnames := hfs.isName_of_mem h
  have hstart : fs.start l.path = [] := by simp [start, Location.isAbsolute_path]
  have hstretch : fs.stretch .followed [] l.path.pieces = .ok (.whole (.found l .folder)) := by
    cases l with
    | nil => rfl
    | cons name around =>
        rw [Location.pieces_path (fun n hn => (hnames n hn).2.1) (List.cons_ne_nil name around),
          stretch_idle rfl (.inl rfl), ← List.append_nil (List.reverse _),
          hfs.stretch_reverse (by decide) h, stretch, h]
  refine stat_eq_ok_iff.mpr (resolve_eq_ok_iff.mpr ⟨hcheck, ?_⟩)
  rw [hstart]
  exact follow_of_whole hstretch 40

theorem WellFormed.get?_of_lstat_path (hfs : fs.WellFormed) (h : fs.get? place = some .folder)
    (hname : IsName name) (hlstat : fs.lstat (Location.path (name :: place)) = .ok (l, e)) :
    fs.get? (name :: place) = some e := by
  have hnames := hfs.isName_of_mem h
  have hslash : ∀ n ∈ name :: place, '/' ∉ n.toList := by
    intro n hn
    rcases List.mem_cons.mp hn with rfl | hn
    · exact hname.2.1
    · exact (hnames n hn).2.1
  obtain ⟨-, hfollow⟩ := resolve_eq_ok_iff.mp (lstat_eq_ok_iff.mp hlstat)
  have hstart : fs.start (Location.path (name :: place)) = [] := by
    simp [start, Location.isAbsolute_path]
  rw [hstart, Location.pieces_path hslash (List.cons_ne_nil name place)] at hfollow
  have hstretch : fs.stretch .itself [] ("" :: (name :: place).reverse) =
      fs.stretch .itself place [name] := by
    rw [stretch_idle rfl (.inl rfl), List.reverse_cons, hfs.stretch_reverse (by decide) h]
  rw [follow_congr hstretch] at hfollow
  have hwalk : ∀ {s}, Walk fs .itself place [name] s →
      s = .whole (.found l e) ∨ (∃ k more, s = .detour k more) →
      fs.get? (name :: place) = some e := by
    intro s hwalk hs
    cases hwalk with
    | idle _ hidle => exact absurd hidle (by simp [hname.1.1, hname.1.2.1])
    | up => exact absurd rfl hname.1.2.2
    | missing => simp at hs
    | itself _ hlink =>
        simp at hs
        rw [hlink, hs.2]
    | turn _ _ hturn => exact absurd ⟨rfl, rfl⟩ hturn
    | into _ hget _ hrest =>
        cases hrest with
        | done hdone =>
            simp at hs
            rw [hdone, hs.2]
  rcases follow_cases hfollow with hgo | ⟨n, k, more, -, hgo, -⟩
  · exact hwalk (walk_of_stretch hgo) (.inl rfl)
  · exact hwalk (walk_of_stretch hgo) (.inr ⟨k, more, rfl⟩)

/-! ## Paths that are made absolute -/

theorem Walk.folder_of_ne_nil {s : Stretch Target} (h : Walk fs purpose place ps s)
    (hps : ps ≠ []) : fs.get? place = some .folder := by
  cases h with
  | done => exact absurd rfl hps
  | idle hfolder => exact hfolder
  | up hfolder => exact hfolder
  | missing hnamed => exact hnamed.folder
  | itself hnamed => exact hnamed.folder
  | turn hnamed => exact hnamed.folder
  | into hnamed => exact hnamed.folder

theorem canonicalStretch_blanks (hblanks : ∀ b ∈ blanks, b = "") :
    fs.canonicalStretch place blanks = .ok (.whole place) := by
  induction blanks with
  | nil => rfl
  | cons b blanks ih =>
      rw [canonicalStretch, if_pos (.inl (hblanks b List.mem_cons_self))]
      exact ih fun c hc => hblanks c (List.mem_cons_of_mem b hc)

/-- A name on the way is a link, which is followed, or something that is entered. -/
theorem WellFormed.canonicalStretch_cases (hfs : fs.WellFormed)
    (hfolder : fs.get? place = some .folder) (hname : IsName name) {s : Stretch Location}
    (h : fs.canonicalStretch place (name :: ps) = .ok s) :
    ∃ e, fs.get? (name :: place) = some e ∧
      ((∃ target, e = .link target ∧ s = detour place target ps) ∨
        (∀ target, e ≠ .link target) ∧ fs.canonicalStretch (name :: place) ps = .ok s) := by
  rw [canonicalStretch, if_neg (by simp [hname.1.1, hname.1.2.1]), if_neg hname.1.2.2] at h
  obtain ⟨⟨k, e⟩, hlstat, h⟩ := except_bind_eq_ok_iff.mp h
  refine ⟨e, hfs.get?_of_lstat_path hfolder hname hlstat, ?_⟩
  have hpast : (if demandsFolder ps then (do
        let _ ← fs.stat ⟨(Location.path (name :: place)).text ++ "/"⟩
        fs.canonicalStretch (name :: place) ps)
      else fs.canonicalStretch (name :: place) ps) = .ok s →
      fs.canonicalStretch (name :: place) ps = .ok s := by
    intro h
    by_cases hdemands : demandsFolder ps
    · rw [if_pos hdemands] at h
      obtain ⟨found, -, h⟩ := except_bind_eq_ok_iff.mp h
      exact h
    · rwa [if_neg hdemands] at h
  cases e with
  | link target => exact .inl ⟨target, rfl, (Except.ok.inj h).symm⟩
  | file bytes runnable => exact .inr ⟨by rintro t ⟨⟩, hpast h⟩
  | folder => exact .inr ⟨by rintro t ⟨⟩, hpast h⟩
  | void => exact .inr ⟨by rintro t ⟨⟩, hpast h⟩

theorem Named.isName {piece : String} (h : Named fs purpose place piece ps)
    (hslash : '/' ∉ piece.toList) : IsName piece :=
  ⟨⟨h.ne_empty, h.ne_dot, h.ne_dots⟩, hslash, h.short⟩

/-- One stretch of a way that is made absolute, beside the same way looked up with more pieces
after it: either the first is at its end, and the second goes on from there, or both meet the same
link. -/
theorem WellFormed.walk_of_canonicalStretch (hfs : fs.WellFormed) (hblanks : ∀ b ∈ blanks, b = "")
    (hps : ∀ piece ∈ ps, '/' ∉ piece.toList) {s : Stretch Location} {s' : Stretch Target}
    (hcanonical : fs.canonicalStretch place (ps ++ blanks) = .ok s)
    (hwalk : Walk fs .followed place (ps ++ qs) s') :
    (∃ l, s = .whole l ∧ Walk fs .followed l qs s') ∨
      ∃ l more, s = .detour l (more ++ blanks) ∧ s' = .detour l (more ++ qs) := by
  induction ps generalizing place with
  | nil =>
      rw [List.nil_append, canonicalStretch_blanks hblanks] at hcanonical
      exact .inl ⟨place, (Except.ok.inj hcanonical).symm, hwalk⟩
  | cons piece ps ih =>
      have hslash := hps piece List.mem_cons_self
      have hrest : ∀ n ∈ ps, '/' ∉ n.toList := fun n hn => hps n (List.mem_cons_of_mem piece hn)
      rw [List.cons_append] at hcanonical hwalk
      generalize hall : ps ++ qs = all at hwalk
      cases hwalk with
      | idle _ hidle hwalk =>
          rw [canonicalStretch, if_pos hidle] at hcanonical
          exact ih hrest hcanonical (hall ▸ hwalk)
      | up _ hwalk =>
          rw [canonicalStretch, if_neg (by decide), if_pos rfl] at hcanonical
          exact ih hrest hcanonical (hall ▸ hwalk)
      | missing hnamed hnone =>
          obtain ⟨e, hget, -⟩ :=
            hfs.canonicalStretch_cases hnamed.folder (hnamed.isName hslash) hcanonical
          rw [hnone] at hget
          cases hget
      | itself _ _ hpurpose => cases hpurpose
      | @turn _ _ target _ hnamed hlink =>
          obtain ⟨e, hget, hcases⟩ :=
            hfs.canonicalStretch_cases hnamed.folder (hnamed.isName hslash) hcanonical
          rw [hlink] at hget
          cases hget
          rcases hcases with ⟨_, heq, rfl⟩ | ⟨hne, -⟩
          · cases heq
            subst hall
            refine .inr ⟨if (⟨target⟩ : Path).isAbsolute then [] else place,
              (⟨target⟩ : Path).pieces ++ ps, ?_, ?_⟩
            · simp only [detour, List.append_assoc]
            · simp only [detour, List.append_assoc]
          · exact absurd rfl (hne _)
      | into hnamed hget hlink hwalk =>
          obtain ⟨e, hget', hcases⟩ :=
            hfs.canonicalStretch_cases hnamed.folder (hnamed.isName hslash) hcanonical
          rw [hget] at hget'
          cases hget'
          rcases hcases with ⟨target, heq, -⟩ | ⟨-, hcanonical⟩
          · exact absurd heq (hlink target)
          · exact ih hrest hcanonical (hall ▸ hwalk)

/-- What holds for a stretch holds for a whole way: it leads to the same place if its beginning is
made absolute first. -/
theorem WellFormed.follow_of_canonical (hfs : fs.WellFormed) (hblanks : ∀ b ∈ blanks, b = "")
    (hslash : ∀ piece ∈ ps ++ qs, '/' ∉ piece.toList) {allowed links : Nat} {t : Target}
    (hcanonical : follow fs.canonicalStretch allowed place (ps ++ blanks) = .ok l)
    (hfollow : follow (fs.stretch .followed) links place (ps ++ qs) = .ok t) :
    follow (fs.stretch .followed) links l qs = .ok t := by
  induction links using Nat.strongRecOn generalizing allowed place ps with
  | ind links ih =>
      have hps : ∀ piece ∈ ps, '/' ∉ piece.toList := fun n hn =>
        hslash n (List.mem_append_left qs hn)
      rcases follow_cases hcanonical with hstop | ⟨_, _, _, -, hturn, hmore⟩
      · obtain ⟨s, hgo⟩ := stretch_of_follow hfollow
        rcases hfs.walk_of_canonicalStretch hblanks hps hstop (walk_of_stretch hgo) with
          ⟨_, heq, hwalk⟩ | ⟨_, _, heq, -⟩
        · cases heq
          rw [follow_congr (hwalk.stretch_eq.trans hgo.symm)]
          exact hfollow
        · cases heq
      · rcases follow_cases hfollow with hgo | ⟨n, _, _, rfl, hgo, hrest⟩
        · rcases hfs.walk_of_canonicalStretch hblanks hps hturn (walk_of_stretch hgo) with
            ⟨_, heq, -⟩ | ⟨_, _, -, heq⟩
          · cases heq
          · cases heq
        · -- Both meet the same link, and one link fewer is left for the rest of the way.
          have hslash' := (walk_of_stretch hgo).slash_notMem hslash
          rcases hfs.walk_of_canonicalStretch hblanks hps hturn (walk_of_stretch hgo) with
            ⟨_, heq, -⟩ | ⟨_, _, heq, heq'⟩
          · cases heq
          · cases heq
            cases heq'
            exact follow_succ (ih n (Nat.lt_succ_self n) hslash' hmore hrest)

theorem follow_of_canonicalize {resolved : Path} (h : fs.canonicalize p = .ok resolved) :
    p.text ≠ "" ∧ ∃ l, follow fs.canonicalStretch 40 (fs.start p) p.pieces = .ok l ∧
      resolved = l.path := by
  unfold canonicalize at h
  obtain ⟨u, hcheck, h⟩ := except_bind_eq_ok_iff.mp h
  constructor
  · intro hempty
    simp [checkText, hempty] at hcheck
  · split at h
    · cases h
    · obtain ⟨l, hfollow, h⟩ := except_bind_eq_ok_iff.mp h
      exact ⟨l, hfollow, (Except.ok.inj h).symm⟩

/-- Where a path is made absolute, it is the absolute path of the place to which it leads. -/
theorem WellFormed.path_of_canonicalize (hfs : fs.WellFormed) {resolved : Path}
    (h : fs.canonicalize p = .ok resolved) (hstat : fs.stat p = .ok (l, e)) :
    resolved = l.path := by
  obtain ⟨-, k, hcanonical, rfl⟩ := follow_of_canonicalize h
  obtain ⟨-, hfollow⟩ := resolve_eq_ok_iff.mp (stat_eq_ok_iff.mp hstat)
  rw [← List.append_nil p.pieces] at hcanonical hfollow
  have hslash : ∀ piece ∈ p.pieces ++ [], '/' ∉ piece.toList := by
    rw [List.append_nil]
    exact fun _ => Path.slash_notMem_of_mem_pieces
  have hend := hfs.follow_of_canonical (by simp) hslash hcanonical hfollow
  obtain ⟨s, hgo⟩ := stretch_of_follow hend
  cases walk_of_stretch hgo with
  | done hget =>
      rw [follow_of_whole hgo] at hend
      cases hend
      rfl

/-- A path seen from a folder leads to the same place as the path seen from the folder's absolute
path. -/
theorem WellFormed.stat_canonical_join (hfs : fs.WellFormed) {resolved : Path}
    (h : fs.canonicalize p = .ok resolved) (hstat : fs.stat (p.join q) = .ok (l, e))
    (hcheck : checkPath (resolved.join q) = .ok ()) : fs.stat (resolved.join q) = .ok (l, e) := by
  by_cases hq : q.isAbsolute
  · have hjoin : ∀ r : Path, r.join q = q := fun r => by simp [Path.join, hq]
    rwa [hjoin] at hstat ⊢
  rw [Bool.not_eq_true] at hq
  obtain ⟨hp, k, hcanonical, rfl⟩ := follow_of_canonicalize h
  obtain ⟨-, hfollow⟩ := resolve_eq_ok_iff.mp (stat_eq_ok_iff.mp hstat)
  obtain ⟨ps, blanks, hpieces, hblanks, hjoin⟩ := Path.pieces_join_of_relative hp hq
  have hstart : fs.start (p.join q) = fs.start p := by
    simp only [start, Path.isAbsolute_join_of_relative hp hq]
  have hslash : ∀ piece ∈ ps ++ q.pieces, '/' ∉ piece.toList := by
    rw [← hjoin]
    exact fun _ => Path.slash_notMem_of_mem_pieces
  rw [hpieces] at hcanonical
  rw [hstart, hjoin] at hfollow
  have hend := hfs.follow_of_canonical hblanks hslash hcanonical hfollow
  have hfolder : fs.get? k = some .folder := by
    obtain ⟨s, hgo⟩ := stretch_of_follow hend
    exact (walk_of_stretch hgo).folder_of_ne_nil q.pieces_ne_nil
  rw [stat_eq_ok_iff, hfs.resolve_path_join (by decide) hfolder hq hcheck]
  exact hend

end FileSystem

end Docset
