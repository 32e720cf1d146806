import Docset.Proofs.Files.Walk

/-!
# Where paths lead

What one stretch of a way keeps, a whole path keeps, past all the links on it. A path that
leads somewhere goes on leading there when the tree grows, a name seen from a folder is
found in that folder, and slashes at the end of a path do not lead anywhere else.
-/
namespace Docset.FileSystem

variable {fs after : FileSystem} {purpose q : Purpose} {place l : Location} {e : Entry}
  {name : String} {ps qs blanks : List String} {p : Path}

theorem except_bind_eq_ok_iff {ε α β : Type} {x : Except ε α} {f : α → Except ε β} {b : β} :
    (x >>= f) = .ok b ↔ ∃ a, x = .ok a ∧ f a = .ok b := by
  cases x with
  | ok a => simp [bind, Except.bind]
  | error e => simp [bind, Except.bind]

theorem except_toOption_eq_some_iff {ε α : Type} {x : Except ε α} {a : α} :
    x.toOption = some a ↔ x = .ok a := by
  cases x with
  | ok b => simp [Except.toOption]
  | error e => simp [Except.toOption]

/-! ## Past links -/

section Follow
variable {α β : Type}

theorem follow_of_whole {go : Location → List String → Except IoError (Stretch α)} {t : α}
    (h : go place ps = .ok (.whole t)) (links : Nat) :
    follow go links place ps = .ok t := by
  cases links with
  | zero => simp [follow, h]
  | succ links => simp [follow, h]

/-- A way to `t` is gone along on related pieces, if each stretch of it is: up to what `R` says of
the end, or up to the same link. -/
theorem follow_simulate (go : Location → List String → Except IoError (Stretch α))
    (go' : Location → List String → Except IoError (Stretch β))
    {S : List String → List String → Prop} {t : α} {R : β → Prop}
    (whole : ∀ {place ps qs}, S ps qs → go place ps = .ok (.whole t) →
      ∃ u, go' place qs = .ok (.whole u) ∧ R u)
    (turn : ∀ {place ps qs l more}, S ps qs → go place ps = .ok (.detour l more) →
      (∃ u, go' place qs = .ok (.whole u) ∧ R u) ∨
        ∃ more', go' place qs = .ok (.detour l more') ∧ S more more')
    {links : Nat} (hS : S ps qs) (h : follow go links place ps = .ok t) :
    ∃ u, follow go' links place qs = .ok u ∧ R u := by
  induction links generalizing place ps qs with
  | zero =>
      unfold follow at h
      split at h
      · rename_i t' hgo
        cases h
        obtain ⟨u, hu, hR⟩ := whole hS hgo
        exact ⟨u, follow_of_whole hu 0, hR⟩
      · cases h
      · cases h
  | succ links ih =>
      unfold follow at h
      split at h
      · rename_i t' hgo
        cases h
        obtain ⟨u, hu, hR⟩ := whole hS hgo
        exact ⟨u, follow_of_whole hu _, hR⟩
      · rename_i l more hgo
        rcases turn hS hgo with ⟨u, hu, hR⟩ | ⟨more', hmore, hS'⟩
        · exact ⟨u, follow_of_whole hu _, hR⟩
        · obtain ⟨u, hu, hR⟩ := ih hS' h
          exact ⟨u, by simp only [follow, hmore, hu], hR⟩
      · cases h

end Follow

/-! ## Whole paths -/

theorem checkPath_eq_ok_iff :
    checkPath p = .ok () ↔
      '\x00' ∉ p.text.toList ∧ p.text ≠ "" ∧ p.text.utf8ByteSize ≤ 4095 := by
  unfold checkPath checkText
  by_cases hnul : '\x00' ∈ p.text.toList
  · simp [hnul, bind, Except.bind]
  · by_cases hempty : p.text = ""
    · simp [hempty, bind, Except.bind]
    · by_cases hlong : 4095 < p.text.utf8ByteSize
      · simp [hnul, hempty, hlong, bind, Except.bind]
      · simp [hnul, hempty, hlong, bind, Except.bind, pure, Except.pure]
        omega

theorem resolve_eq_ok_iff {t : Target} :
    fs.resolve purpose p = .ok t ↔
      checkPath p = .ok () ∧ follow (fs.stretch purpose) 40 (fs.start p) p.pieces = .ok t := by
  unfold resolve
  cases hcheck : checkPath p with
  | ok u => simp [bind, Except.bind]
  | error e => simp [bind, Except.bind]

theorem lookUp_eq_ok_iff :
    fs.lookUp purpose p = .ok (l, e) ↔ fs.resolve purpose p = .ok (.found l e) := by
  unfold lookUp
  split
  · rename_i heq
    simp [heq]
  · rename_i heq
    simp [heq]
  · rename_i heq
    simp [heq]

theorem stat_eq_ok_iff : fs.stat p = .ok (l, e) ↔ fs.resolve .followed p = .ok (.found l e) :=
  lookUp_eq_ok_iff

theorem lstat_eq_ok_iff : fs.lstat p = .ok (l, e) ↔ fs.resolve .itself p = .ok (.found l e) :=
  lookUp_eq_ok_iff

theorem isFolder_iff : fs.isFolder p ↔ ∃ l, fs.stat p = .ok (l, .folder) := by
  unfold isFolder
  split
  · rename_i l heq
    simp [heq]
  · rename_i hne
    simp only [Bool.false_eq_true, false_iff, not_exists]
    exact fun l heq => hne l heq

theorem isFile_iff :
    fs.isFile p ↔ ∃ l bytes runnable, fs.stat p = .ok (l, .file bytes runnable) := by
  unfold isFile
  split
  · rename_i l bytes runnable heq
    simp [heq]
  · rename_i hne
    simp only [Bool.false_eq_true, false_iff, not_exists]
    exact fun l bytes runnable heq => hne l bytes runnable heq

theorem get?_of_resolve (h : fs.resolve purpose p = .ok (.found l e)) : fs.get? l = some e := by
  have hwalk : ∀ {place ps}, Walk fs purpose place ps (.whole (.found l e)) →
      fs.get? l = some e := by
    intro place ps h
    generalize hs : Stretch.whole (Target.found l e) = t at h
    induction h with
    | done hget =>
        cases hs
        exact hget
    | idle _ _ _ ih => exact ih hs
    | up _ _ ih => exact ih hs
    | missing => cases hs
    | itself _ hlink =>
        cases hs
        exact hlink
    | turn => cases hs
    | into _ _ _ _ ih => exact ih hs
  obtain ⟨-, hfollow⟩ := resolve_eq_ok_iff.mp h
  obtain ⟨u, -, hu⟩ := follow_simulate (fs.stretch purpose) (fs.stretch purpose) (S := Eq)
    (R := fun _ => fs.get? l = some e)
    (fun hS hgo => ⟨_, hS ▸ hgo, hwalk (walk_of_stretch hgo)⟩)
    (fun hS hgo => .inr ⟨_, hS ▸ hgo, rfl⟩) rfl hfollow
  exact hu

theorem Keeps.resolve (k : Keeps fs after) (h : fs.resolve purpose p = .ok (.found l e)) :
    ∃ e', after.resolve purpose p = .ok (.found l e') ∧ Entry.Alike e e' := by
  obtain ⟨hcheck, hfollow⟩ := resolve_eq_ok_iff.mp h
  have hstart : after.start p = fs.start p := by simp only [start, k.here]
  have hsame : ∀ {place ps s}, (∀ l, s ≠ .whole (.missing l)) →
      fs.stretch purpose place ps = .ok s →
      ∃ s', after.stretch purpose place ps = .ok s' ∧ Ends s s' := by
    intro place ps s hs hgo
    obtain ⟨s', hwalk, hends⟩ := (walk_of_stretch hgo).keeps k hs
    exact ⟨s', hwalk.stretch_eq, hends⟩
  obtain ⟨u, hu, e', rfl, halike⟩ :=
    follow_simulate (fs.stretch purpose) (after.stretch purpose) (S := Eq)
    (R := fun u => ∃ e', u = .found l e' ∧ Entry.Alike e e')
    (by
      rintro place ps _ rfl hgo
      obtain ⟨s', hs', hends⟩ := hsame (by rintro l ⟨⟩) hgo
      cases hends with
      | found halike => exact ⟨_, hs', _, rfl, halike⟩)
    (by
      rintro place ps _ l more rfl hgo
      obtain ⟨s', hs', hends⟩ := hsame (by rintro l ⟨⟩) hgo
      cases hends
      exact .inr ⟨_, hs', rfl⟩) rfl hfollow
  exact ⟨e', resolve_eq_ok_iff.mpr ⟨hcheck, hstart ▸ hu⟩, halike⟩

theorem Keeps.lookUp (k : Keeps fs after) (h : fs.lookUp purpose p = .ok (l, e)) :
    ∃ e', after.lookUp purpose p = .ok (l, e') ∧ Entry.Alike e e' := by
  obtain ⟨e', he', halike⟩ := k.resolve (lookUp_eq_ok_iff.mp h)
  exact ⟨e', lookUp_eq_ok_iff.mpr he', halike⟩

theorem Keeps.stat_folder (k : Keeps fs after) (h : fs.stat p = .ok (l, .folder)) :
    after.stat p = .ok (l, .folder) := by
  obtain ⟨e', he', halike⟩ := k.lookUp h
  cases halike
  exact he'

theorem Keeps.isFolder (k : Keeps fs after) (h : fs.isFolder p) : after.isFolder p := by
  obtain ⟨l, hl⟩ := isFolder_iff.mp h
  exact isFolder_iff.mpr ⟨l, k.stat_folder hl⟩

theorem free_of_resolve (h : fs.resolve purpose p = .ok (.missing l)) : fs.Free l := by
  obtain ⟨-, hfollow⟩ := resolve_eq_ok_iff.mp h
  obtain ⟨u, -, hu⟩ := follow_simulate (fs.stretch purpose) (fs.stretch purpose)
    (S := fun ps qs => ps = qs ∧ ∀ piece ∈ ps, '/' ∉ piece.toList) (R := fun _ => fs.Free l)
    (fun hS hgo => ⟨_, hS.1 ▸ hgo, (walk_of_stretch hgo).free hS.2⟩)
    (fun hS hgo => .inr ⟨_, hS.1 ▸ hgo, rfl, (walk_of_stretch hgo).slash_notMem hS.2⟩)
    ⟨rfl, fun _ => Path.slash_notMem_of_mem_pieces⟩ hfollow
  exact hu

theorem Keeps.follow_regain (k : Keeps fs after) {links : Nat}
    (h : follow (fs.stretch purpose) links place ps = .ok (.missing l))
    (hget : after.get? l = some e) (hr : Regained purpose q e blanks) :
    follow (after.stretch q) links place (ps ++ blanks) = .ok (.found l e) := by
  obtain ⟨u, hu, rfl⟩ := follow_simulate (fs.stretch purpose) (after.stretch q)
    (S := fun ps qs => qs = ps ++ blanks) (R := fun u => u = .found l e)
    (by
      rintro place ps _ rfl hgo
      exact ⟨_, ((walk_of_stretch hgo).regain k hget hr).stretch_eq, rfl⟩)
    (by
      rintro place ps _ l more rfl hgo
      exact .inr ⟨_, ((walk_of_stretch hgo).regain_detour k hr).stretch_eq, rfl⟩) rfl h
  exact hu

/-- A file is found where it was missing when it was to be created. -/
theorem Keeps.resolve_created (k : Keeps fs after) (h : fs.resolve .created p = .ok (.missing l))
    {bytes : ByteArray} {runnable : Bool} (hget : after.get? l = some (.file bytes runnable)) :
    after.resolve .created p = .ok (.found l (.file bytes runnable)) := by
  obtain ⟨hcheck, hfollow⟩ := resolve_eq_ok_iff.mp h
  have hstart : after.start p = fs.start p := by simp only [start, k.here]
  have hr : Regained .created .created (.file bytes runnable) [] :=
    ⟨by rintro target ⟨⟩, by simp, .inl ⟨rfl, rfl, rfl⟩⟩
  have := k.follow_regain hfollow hget hr
  rw [List.append_nil] at this
  exact resolve_eq_ok_iff.mpr ⟨hcheck, hstart ▸ this⟩

/-- A folder is found where it was missing when it was to be made. -/
theorem Keeps.stat_made (k : Keeps fs after) (hcheck : checkPath p = .ok ())
    (h : fs.resolve .itself p.withoutEndSlashes = .ok (.missing l))
    (hget : after.get? l = some .folder) : after.stat p = .ok (l, .folder) := by
  obtain ⟨-, hfollow⟩ := resolve_eq_ok_iff.mp h
  have hstart : after.start p = fs.start p.withoutEndSlashes := by
    simp only [start, k.here, Path.isAbsolute_withoutEndSlashes]
  obtain ⟨n, hn⟩ := p.pieces_withoutEndSlashes
  refine stat_eq_ok_iff.mpr (resolve_eq_ok_iff.mpr ⟨hcheck, ?_⟩)
  rw [hstart, hn]
  exact k.follow_regain hfollow hget
    ⟨by rintro target ⟨⟩, fun b hb => (List.mem_replicate.mp hb).2, .inr ⟨rfl, rfl⟩⟩

/-- What is found for any purpose, and is no link, is what the path stands for. -/
theorem stat_of_resolve (h : fs.resolve purpose p = .ok (.found l e))
    (he : ∀ target, e ≠ .link target) : fs.stat p = .ok (l, e) := by
  obtain ⟨hcheck, hfollow⟩ := resolve_eq_ok_iff.mp h
  obtain ⟨u, hu, rfl⟩ := follow_simulate (fs.stretch purpose) (fs.stretch .followed)
    (S := Eq) (R := fun u => u = .found l e)
    (by
      rintro place ps _ rfl hgo
      refine ⟨_, ((walk_of_stretch hgo).followed ?_).stretch_eq, rfl⟩
      rintro l target ⟨⟩
      exact he target rfl)
    (by
      rintro place ps _ l more rfl hgo
      exact .inr ⟨_, ((walk_of_stretch hgo).followed (by rintro l target ⟨⟩)).stretch_eq, rfl⟩)
    rfl hfollow
  exact stat_eq_ok_iff.mpr (resolve_eq_ok_iff.mpr ⟨hcheck, hu⟩)

theorem stat_of_lstat (h : fs.lstat p = .ok (l, e)) (he : ∀ target, e ≠ .link target) :
    fs.stat p = .ok (l, e) :=
  stat_of_resolve (lstat_eq_ok_iff.mp h) he

/-- A path that leads to a folder names the folder itself, or a link to it. -/
theorem folder_or_link {link : Location} (hlstat : fs.lstat p = .ok (link, e))
    (hstat : fs.stat p = .ok (l, .folder)) : (link = l ∧ e = .folder) ∨ ∃ t, e = .link t := by
  by_cases hlink : ∃ t, e = .link t
  · exact .inr hlink
  · rw [stat_of_lstat hlstat fun t heq => hlink ⟨t, heq⟩] at hstat
    cases hstat
    exact .inl ⟨rfl, rfl⟩

theorem follow_without_blanks {links : Nat} (hblanks : ∀ b ∈ blanks, b = "")
    (h : follow (fs.stretch .followed) links place (ps ++ blanks) = .ok (.found l e)) :
    follow (fs.stretch .followed) links place ps = .ok (.found l e) := by
  obtain ⟨u, hu, rfl⟩ := follow_simulate (fs.stretch .followed) (fs.stretch .followed)
    (S := fun ps qs => ps = qs ++ blanks) (R := fun u => u = .found l e)
    (by
      rintro place _ qs rfl hgo
      obtain ⟨hfound, -⟩ := (walk_of_stretch hgo).without_blanks hblanks (q := .followed) (by simp)
      exact ⟨_, (hfound _ _ rfl).stretch_eq, rfl⟩)
    (by
      rintro place _ qs l more rfl hgo
      obtain ⟨-, hdetour⟩ :=
        (walk_of_stretch hgo).without_blanks hblanks (q := .followed) (by simp)
      rcases hdetour _ _ rfl with ⟨hq, -⟩ | ⟨more', hmore, hwalk⟩
      · cases hq
      · exact .inr ⟨more', hwalk.stretch_eq, hmore⟩) rfl h
  exact hu

theorem follow_itself_without_blanks {links : Nat} (hblanks : ∀ b ∈ blanks, b = "")
    (h : follow (fs.stretch .followed) links place (ps ++ blanks) = .ok (.found l e)) :
    ∃ k e', follow (fs.stretch .itself) links place ps = .ok (.found k e') := by
  obtain ⟨u, hu, k, e', rfl⟩ := follow_simulate (fs.stretch .followed) (fs.stretch .itself)
    (S := fun ps qs => ps = qs ++ blanks) (R := fun u => ∃ k e', u = .found k e')
    (by
      rintro place _ qs rfl hgo
      obtain ⟨hfound, -⟩ := (walk_of_stretch hgo).without_blanks hblanks (q := .itself) (by simp)
      exact ⟨_, (hfound _ _ rfl).stretch_eq, _, _, rfl⟩)
    (by
      rintro place _ qs l more rfl hgo
      obtain ⟨-, hdetour⟩ := (walk_of_stretch hgo).without_blanks hblanks (q := .itself) (by simp)
      rcases hdetour _ _ rfl with ⟨-, k, e', hwalk⟩ | ⟨more', hmore, hwalk⟩
      · exact .inl ⟨_, hwalk.stretch_eq, k, e', rfl⟩
      · exact .inr ⟨more', hwalk.stretch_eq, hmore⟩) rfl h
  exact ⟨k, e', hu⟩

theorem lstat_of_stat (h : fs.stat p = .ok (l, e)) :
    ∃ k e', fs.lstat p = .ok (k, e') := by
  obtain ⟨hcheck, hfollow⟩ := resolve_eq_ok_iff.mp (stat_eq_ok_iff.mp h)
  rw [← List.append_nil p.pieces] at hfollow
  obtain ⟨k, e', hk⟩ := follow_itself_without_blanks (by simp) hfollow
  exact ⟨k, e', lstat_eq_ok_iff.mpr (resolve_eq_ok_iff.mpr ⟨hcheck, hk⟩)⟩

theorem checkPath_withoutEndSlashes (h : checkPath p = .ok ()) :
    checkPath p.withoutEndSlashes = .ok () := by
  obtain ⟨hnul, hempty, hlong⟩ := checkPath_eq_ok_iff.mp h
  obtain ⟨n, hn, hne⟩ := p.text_withoutEndSlashes
  refine checkPath_eq_ok_iff.mpr ⟨?_, hne hempty, ?_⟩
  · intro hmem
    exact hnul (by rw [hn]; exact List.mem_append_left _ hmem)
  · have htext : p.text = p.withoutEndSlashes.text ++ String.ofList (List.replicate n '/') := by
      rw [← String.toList_inj]
      simpa using hn
    rw [htext, String.utf8ByteSize_append] at hlong
    omega

theorem resolve_itself_of_isFolder (h : fs.isFolder p) :
    ∃ k e, fs.resolve .itself p.withoutEndSlashes = .ok (.found k e) := by
  obtain ⟨l, hl⟩ := isFolder_iff.mp h
  obtain ⟨hcheck, hfollow⟩ := resolve_eq_ok_iff.mp (stat_eq_ok_iff.mp hl)
  obtain ⟨n, hn⟩ := p.pieces_withoutEndSlashes
  rw [hn] at hfollow
  obtain ⟨k, e, hk⟩ :=
    follow_itself_without_blanks (fun b hb => (List.mem_replicate.mp hb).2) hfollow
  refine ⟨k, e, resolve_eq_ok_iff.mpr ⟨checkPath_withoutEndSlashes hcheck, ?_⟩⟩
  simpa only [start, Path.isAbsolute_withoutEndSlashes] using hk

theorem named_of_fits {rest : List String} (hname : IsName name)
    (hfolder : fs.get? place = some .folder)
    (hfits : purpose = .created → rest.all (· = "") → rest = []) :
    Named fs purpose place name rest :=
  { folder := hfolder
    ne_empty := hname.1.1
    ne_dot := hname.1.2.1
    ne_dots := hname.1.2.2
    fits := hfits
    short := hname.2.2 }

theorem named_of_isName (hname : IsName name)
    (hfolder : fs.get? place = some .folder) : Named fs purpose place name [] :=
  named_of_fits hname hfolder fun _ _ => rfl

theorem follow_append {links : Nat} (hqs : GoesOn purpose qs)
    (h : follow (fs.stretch .followed) links place ps = .ok (.found l e)) :
    ∃ left, follow (fs.stretch purpose) links place (ps ++ qs) =
      follow (fs.stretch purpose) left l qs := by
  induction links generalizing place ps with
  | zero =>
      unfold follow at h
      split at h
      · rename_i t hgo
        cases h
        refine ⟨0, ?_⟩
        simp only [follow, (walk_of_stretch hgo).stretch_append hqs]
      · cases h
      · cases h
  | succ links ih =>
      unfold follow at h
      split at h
      · rename_i t hgo
        cases h
        refine ⟨links + 1, ?_⟩
        simp only [follow, (walk_of_stretch hgo).stretch_append hqs]
      · rename_i k more hgo
        obtain ⟨left, hleft⟩ := ih h
        have hturn := ((walk_of_stretch hgo).append_detour hqs).stretch_eq
        exact ⟨left, by simp only [follow, hturn, hleft]⟩
      · cases h

/-- A path seen from a folder leads on from that folder. -/
theorem resolve_join_of_relative {q : Path} (h : fs.stat p = .ok (place, .folder))
    (hq : q.isAbsolute = false) (hqs : GoesOn purpose q.pieces)
    (hcheck : checkPath (p.join q) = .ok ()) :
    ∃ left, fs.resolve purpose (p.join q) = follow (fs.stretch purpose) left place q.pieces := by
  obtain ⟨hp, hfollow⟩ := resolve_eq_ok_iff.mp (stat_eq_ok_iff.mp h)
  have hp' := (checkPath_eq_ok_iff.mp hp).2.1
  obtain ⟨ps, blanks, hpieces, hblanks, hjoin⟩ := Path.pieces_join_of_relative hp' hq
  rw [hpieces] at hfollow
  obtain ⟨left, hleft⟩ := follow_append hqs (follow_without_blanks hblanks hfollow)
  refine ⟨left, ?_⟩
  have hstart : fs.start (p.join q) = fs.start p := by
    simp only [start, Path.isAbsolute_join_of_relative hp' hq]
  unfold resolve
  rw [hcheck, hjoin, hstart]
  exact hleft

theorem resolve_join {t : Target} (h : fs.stat p = .ok (place, .folder)) (hname : IsName name)
    (hcheck : checkPath (p.join ⟨name⟩) = .ok ())
    (ht : Walk fs purpose place [name] (.whole t)) :
    fs.resolve purpose (p.join ⟨name⟩) = .ok t := by
  have hpieces : (⟨name⟩ : Path).pieces = [name] := Path.pieces_of_slash_notMem hname.2.1
  have hone : ¬ [name].all (· = "") := by simpa using hname.1.1
  have hgoes : GoesOn purpose (⟨name⟩ : Path).pieces := .inr (hpieces ▸ hone)
  obtain ⟨left, hleft⟩ := resolve_join_of_relative h
    (Path.isAbsolute_of_slash_notMem hname.2.1) hgoes hcheck
  rw [hleft, hpieces]
  exact follow_of_whole ht.stretch_eq left

theorem resolve_join_found (h : fs.stat p = .ok (place, .folder)) (hname : IsName name)
    (hcheck : checkPath (p.join ⟨name⟩) = .ok ()) (hget : fs.get? (name :: place) = some e)
    (he : ∀ target, e ≠ .link target) :
    fs.resolve purpose (p.join ⟨name⟩) = .ok (.found (name :: place) e) :=
  resolve_join h hname hcheck
    (.into (named_of_isName hname (get?_of_resolve (stat_eq_ok_iff.mp h))) hget he (.done hget))

theorem stat_join (h : fs.stat p = .ok (place, .folder)) (hname : IsName name)
    (hcheck : checkPath (p.join ⟨name⟩) = .ok ()) (hget : fs.get? (name :: place) = some e)
    (he : ∀ target, e ≠ .link target) : fs.stat (p.join ⟨name⟩) = .ok (name :: place, e) :=
  stat_eq_ok_iff.mpr (resolve_join_found h hname hcheck hget he)

theorem resolve_join_missing (h : fs.stat p = .ok (place, .folder)) (hname : IsName name)
    (hcheck : checkPath (p.join ⟨name⟩) = .ok ()) (hget : fs.get? (name :: place) = none) :
    fs.resolve purpose (p.join ⟨name⟩) = .ok (.missing (name :: place)) :=
  resolve_join h hname hcheck
    (.missing (named_of_isName hname (get?_of_resolve (stat_eq_ok_iff.mp h))) hget rfl)

theorem stat_of_stat_slash (hp : p.text ≠ "") (h : fs.stat (p.join ⟨""⟩) = .ok (l, .folder)) :
    fs.stat p = .ok (l, .folder) := by
  obtain ⟨hcheck, hfollow⟩ := resolve_eq_ok_iff.mp (stat_eq_ok_iff.mp h)
  by_cases hlast : p.text.toList.getLast? = some '/'
  · have hjoin : p.join ⟨""⟩ = p := by simp [Path.join, Path.isAbsolute, hlast]
    rwa [hjoin] at h
  · have hjoin : p.join ⟨""⟩ = ⟨p.text ++ "/" ++ ""⟩ := by
      simp [Path.join, Path.isAbsolute, hlast, hp]
    rw [hjoin] at hcheck hfollow
    rw [Path.pieces_append_slash] at hfollow
    obtain ⟨hnul, -, hlong⟩ := checkPath_eq_ok_iff.mp hcheck
    have hcheck' : checkPath p = .ok () := by
      refine checkPath_eq_ok_iff.mpr ⟨?_, hp, ?_⟩
      · intro hmem
        exact hnul (by simp [hmem])
      · simp only [String.utf8ByteSize_append] at hlong
        omega
    have habs : (⟨p.text ++ "/" ++ ""⟩ : Path).isAbsolute = p.isAbsolute := by
      obtain ⟨c, cs, hcs⟩ : ∃ c cs, p.text.toList = c :: cs := by
        apply List.exists_cons_of_ne_nil
        simpa using hp
      simp [Path.isAbsolute, hcs]
    refine stat_eq_ok_iff.mpr (resolve_eq_ok_iff.mpr ⟨hcheck', ?_⟩)
    simp only [start, habs] at hfollow
    exact follow_without_blanks (by simp) hfollow

/-! ## Absolute paths -/

theorem Keeps.canonicalStretch (k : Keeps fs after) {s : Stretch Location}
    (h : fs.canonicalStretch place ps = .ok s) : after.canonicalStretch place ps = .ok s := by
  induction ps generalizing place with
  | nil => exact h
  | cons piece rest ih =>
      unfold FileSystem.canonicalStretch at h ⊢
      by_cases hidle : piece = "" ∨ piece = "."
      · rw [if_pos hidle] at h ⊢
        exact ih h
      rw [if_neg hidle] at h ⊢
      by_cases hup : piece = ".."
      · rw [if_pos hup] at h ⊢
        exact ih h
      rw [if_neg hup] at h ⊢
      obtain ⟨⟨l, e⟩, hlstat, h⟩ := except_bind_eq_ok_iff.mp h
      obtain ⟨e', he', halike⟩ := k.lookUp hlstat
      refine except_bind_eq_ok_iff.mpr ⟨_, he', ?_⟩
      -- A link stays the same link; anything else is gone past as before.
      have hpast : (if demandsFolder rest then (do
            let _ ← fs.stat ⟨(Location.path (piece :: place)).text ++ "/"⟩
            fs.canonicalStretch (piece :: place) rest)
          else fs.canonicalStretch (piece :: place) rest) = .ok s →
          (if demandsFolder rest then (do
            let _ ← after.stat ⟨(Location.path (piece :: place)).text ++ "/"⟩
            after.canonicalStretch (piece :: place) rest)
          else after.canonicalStretch (piece :: place) rest) = .ok s := by
        intro h
        by_cases hdemands : demandsFolder rest
        · rw [if_pos hdemands] at h ⊢
          obtain ⟨⟨l, e⟩, hstat, h⟩ := except_bind_eq_ok_iff.mp h
          obtain ⟨e', he', -⟩ := k.lookUp hstat
          exact except_bind_eq_ok_iff.mpr ⟨_, he', ih h⟩
        · rw [if_neg hdemands] at h ⊢
          exact ih h
      cases halike with
      | refl =>
          cases e with
          | link target => exact h
          | file bytes runnable => exact hpast h
          | folder => exact hpast h
          | void => exact hpast h
      | file => exact hpast h

theorem Keeps.canonicalize (k : Keeps fs after) {resolved : Path}
    (h : fs.canonicalize p = .ok resolved) : after.canonicalize p = .ok resolved := by
  have hstart : after.start p = fs.start p := by simp only [start, k.here]
  unfold FileSystem.canonicalize at h ⊢
  obtain ⟨u, hcheck, h⟩ := except_bind_eq_ok_iff.mp h
  refine except_bind_eq_ok_iff.mpr ⟨u, hcheck, ?_⟩
  by_cases hnone : (fs.get? (fs.start p)).isNone
  · rw [if_pos hnone] at h
    cases h
  rw [if_neg hnone] at h
  obtain ⟨l, hfollow, h⟩ := except_bind_eq_ok_iff.mp h
  have hsome : ¬ (after.get? (after.start p)).isNone := by
    obtain ⟨e, he⟩ := Option.ne_none_iff_exists'.mp (by simpa using hnone)
    obtain ⟨e', he', -⟩ := k.get? he
    simp [hstart, he']
  rw [if_neg hsome]
  obtain ⟨u, hu, rfl⟩ := follow_simulate fs.canonicalStretch after.canonicalStretch
    (S := Eq) (R := fun u => u = l)
    (fun hS hgo => ⟨_, hS ▸ k.canonicalStretch hgo, rfl⟩)
    (fun hS hgo => .inr ⟨_, hS ▸ k.canonicalStretch hgo, rfl⟩) rfl hfollow
  exact except_bind_eq_ok_iff.mpr ⟨u, hstart ▸ hu, h⟩

end Docset.FileSystem
