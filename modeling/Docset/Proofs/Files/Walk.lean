import Docset.Proofs.Files.Path
import Docset.Proofs.Files.Tree

/-!
# The way up to the first link

The way along the pieces of a path, up to the first link, is stated as a relation with one
rule for each kind of piece, and the function that goes this way is shown to compute it.
What such a way keeps is then said rule by rule: when the tree grows, when a name follows,
when slashes at the end are dropped, and when an entry that was missing is there.
-/
namespace Docset.FileSystem

variable {fs after : FileSystem} {purpose q : Purpose} {place l : Location} {e : Entry}
  {piece name : String} {ps qs rest blanks : List String} {s : Stretch Target} {p : Path}

/-- A piece that is looked up as a name, with the pieces after it. -/
structure Named (fs : FileSystem) (purpose : Purpose) (place : Location) (piece : String)
    (rest : List String) : Prop where
  folder : fs.get? place = some .folder
  ne_empty : piece ≠ ""
  ne_dot : piece ≠ "."
  ne_dots : piece ≠ ".."
  /-- A file to be created has no slash after its name. -/
  fits : purpose = .created → rest.all (· = "") → rest = []
  short : piece.utf8ByteSize ≤ 255

/-- The ways along pieces, up to the first link. -/
inductive Walk (fs : FileSystem) (purpose : Purpose) :
    Location → List String → Stretch Target → Prop
  | done {place : Location} {e : Entry} :
      fs.get? place = some e → Walk fs purpose place [] (.whole (.found place e))
  | idle {place : Location} {piece : String} {rest : List String} {s : Stretch Target} :
      fs.get? place = some .folder → piece = "" ∨ piece = "." → Walk fs purpose place rest s →
      Walk fs purpose place (piece :: rest) s
  | up {place : Location} {rest : List String} {s : Stretch Target} :
      fs.get? place = some .folder → Walk fs purpose place.tail rest s →
      Walk fs purpose place (".." :: rest) s
  | missing {place : Location} {piece : String} {rest : List String} :
      Named fs purpose place piece rest → fs.get? (piece :: place) = none → rest.all (· = "") →
      Walk fs purpose place (piece :: rest) (.whole (.missing (piece :: place)))
  | itself {place : Location} {piece target : String} :
      Named fs purpose place piece [] → fs.get? (piece :: place) = some (.link target) →
      purpose = .itself →
      Walk fs purpose place [piece] (.whole (.found (piece :: place) (.link target)))
  | turn {place : Location} {piece target : String} {rest : List String} :
      Named fs purpose place piece rest → fs.get? (piece :: place) = some (.link target) →
      ¬ (rest = [] ∧ purpose = .itself) →
      Walk fs purpose place (piece :: rest) (detour place target rest)
  | into {place : Location} {piece : String} {rest : List String} {e : Entry}
      {s : Stretch Target} :
      Named fs purpose place piece rest → fs.get? (piece :: place) = some e →
      (∀ target, e ≠ .link target) → Walk fs purpose (piece :: place) rest s →
      Walk fs purpose place (piece :: rest) s

theorem Named.guard_eq_false (h : Named fs purpose place piece rest) :
    (purpose = .created && !rest.isEmpty && rest.all (· = "")) = false := by
  rw [Bool.eq_false_iff]
  intro hcreated
  simp only [Bool.and_eq_true, decide_eq_true_eq, Bool.not_eq_true'] at hcreated
  simp [h.fits hcreated.1.1 hcreated.2] at hcreated

theorem Walk.stretch_eq (h : Walk fs purpose place ps s) :
    fs.stretch purpose place ps = .ok s := by
  induction h with
  | done hget => simp [stretch, hget]
  | idle hfolder hidle _ ih => simp [stretch, hfolder, hidle, ih]
  | up hfolder _ ih => simp [stretch, hfolder, ih]
  | missing hn hnone hrest =>
      rw [stretch, hn.folder]
      simp only [hn.ne_empty, hn.ne_dot, hn.ne_dots, or_self, if_false, hn.guard_eq_false,
        Bool.false_eq_true, Nat.not_lt.mpr hn.short, hnone, if_pos hrest]
  | itself hn hlink hpurpose =>
      rw [stretch, hn.folder]
      simp [hn.ne_empty, hn.ne_dot, hn.ne_dots, Nat.not_lt.mpr hn.short, hlink, hpurpose]
  | @turn place piece target rest hn hlink hturn =>
      have hend : ¬ (rest.isEmpty && decide (purpose = .itself)) = true := by simpa using hturn
      rw [stretch, hn.folder]
      simp only [hn.ne_empty, hn.ne_dot, hn.ne_dots, or_self, if_false, hn.guard_eq_false,
        Bool.false_eq_true, Nat.not_lt.mpr hn.short, hlink, if_neg hend]
  | @into place piece rest e s hn hget hlink _ ih =>
      rw [stretch, hn.folder]
      simp only [hn.ne_empty, hn.ne_dot, hn.ne_dots, or_self, if_false, hn.guard_eq_false,
        Bool.false_eq_true, Nat.not_lt.mpr hn.short, hget]
      cases e with
      | link target => exact absurd rfl (hlink target)
      | file bytes runnable => exact ih
      | folder => exact ih
      | void => exact ih

theorem walk_of_stretch (h : fs.stretch purpose place ps = .ok s) :
    Walk fs purpose place ps s := by
  induction ps generalizing place with
  | nil =>
      unfold stretch at h
      split at h
      · rename_i e hget
        cases h
        exact .done hget
      · cases h
  | cons piece rest ih =>
      unfold stretch at h
      split at h
      · cases h
      · rename_i hfolder
        split at h
        · rename_i hidle
          exact .idle hfolder hidle (ih h)
        rename_i hidle
        rw [not_or] at hidle
        split at h
        · rename_i hup
          subst hup
          exact .up hfolder (ih h)
        rename_i hup
        split at h
        · cases h
        rename_i hcreated
        split at h
        · cases h
        rename_i hshort
        have hnamed : Named fs purpose place piece rest :=
          { folder := hfolder
            ne_empty := hidle.1
            ne_dot := hidle.2
            ne_dots := hup
            fits := by
              intro hpurpose hall
              simpa [hpurpose, hall] using hcreated
            short := Nat.not_lt.mp hshort }
        split at h
        · rename_i hnone
          split at h
          · rename_i hrest
            cases h
            exact .missing hnamed hnone hrest
          · cases h
        · rename_i target hlink
          split at h
          · rename_i hend
            simp only [Bool.and_eq_true, List.isEmpty_iff, decide_eq_true_eq] at hend
            obtain ⟨rfl, hpurpose⟩ := hend
            cases h
            exact .itself hnamed hlink hpurpose
          · rename_i hend
            cases h
            exact .turn hnamed hlink (by simpa using hend)
        · rename_i e hlink hget
          exact .into hnamed hget hlink (ih h)
      · cases h

/-- Two stretches that end at the same place or at the same link. -/
inductive Ends : Stretch Target → Stretch Target → Prop
  | found {l : Location} {e e' : Entry} :
      Entry.Alike e e' → Ends (.whole (.found l e)) (.whole (.found l e'))
  | detour {l : Location} {more : List String} : Ends (.detour l more) (.detour l more)

theorem Named.keeps (h : Named fs purpose place piece rest) (k : Keeps fs after) :
    Named after purpose place piece rest :=
  { h with folder := k.folder h.folder }

theorem Walk.keeps (h : Walk fs purpose place ps s) (k : Keeps fs after)
    (hs : ∀ l, s ≠ .whole (.missing l)) : ∃ s', Walk after purpose place ps s' ∧ Ends s s' := by
  induction h with
  | done hget =>
      obtain ⟨e', he', halike⟩ := k.get? hget
      exact ⟨_, .done he', .found halike⟩
  | idle hfolder hidle _ ih =>
      obtain ⟨s', hs', hends⟩ := ih hs
      exact ⟨s', .idle (k.folder hfolder) hidle hs', hends⟩
  | up hfolder _ ih =>
      obtain ⟨s', hs', hends⟩ := ih hs
      exact ⟨s', .up (k.folder hfolder) hs', hends⟩
  | missing => exact absurd rfl (hs _)
  | itself hnamed hlink hpurpose =>
      obtain ⟨e', he', halike⟩ := k.get? hlink
      cases halike
      exact ⟨_, .itself (hnamed.keeps k) he' hpurpose, .found (.refl _)⟩
  | turn hnamed hlink hturn =>
      obtain ⟨e', he', halike⟩ := k.get? hlink
      cases halike
      exact ⟨_, .turn (hnamed.keeps k) he' hturn, .detour⟩
  | into hnamed hget hlink _ ih =>
      obtain ⟨s', hs', hends⟩ := ih hs
      obtain ⟨e', he', halike⟩ := k.get? hget
      refine ⟨s', .into (hnamed.keeps k) he' ?_ hs', hends⟩
      rintro target rfl
      cases halike
      exact hlink target rfl

/-- Where a way goes on past its end: a file to be created has a name to come, and a link at the
end is no longer the end. -/
def GoesOn (purpose : Purpose) (qs : List String) : Prop :=
  purpose = .followed ∨ ¬ qs.all (· = "")

theorem Named.append (h : Named fs .followed place piece rest) (hqs : GoesOn purpose qs) :
    Named fs purpose place piece (rest ++ qs) :=
  { h with
    fits := by
      rintro rfl hall
      rcases hqs with hfollowed | hname
      · cases hfollowed
      · rw [List.all_append] at hall
        simp [hname] at hall }

theorem Walk.stretch_append (h : Walk fs .followed place ps (.whole (.found l e)))
    (hqs : GoesOn purpose qs) :
    fs.stretch purpose place (ps ++ qs) = fs.stretch purpose l qs := by
  generalize hs : Stretch.whole (Target.found l e) = t at h
  induction h with
  | done =>
      cases hs
      rfl
  | idle hfolder hidle _ ih =>
      rw [← ih hs, List.cons_append, stretch, hfolder]
      simp only [hidle, if_true]
  | up hfolder _ ih =>
      rw [← ih hs, List.cons_append, stretch, hfolder]
      rfl
  | missing => cases hs
  | itself _ _ hpurpose => cases hpurpose
  | turn => cases hs
  | @into place piece rest e s hnamed hget hlink _ ih =>
      have hnamed' := hnamed.append hqs
      rw [← ih hs, List.cons_append, stretch, hnamed.folder]
      simp only [hnamed.ne_empty, hnamed.ne_dot, hnamed.ne_dots, or_self, if_false,
        hnamed'.guard_eq_false, Bool.false_eq_true, Nat.not_lt.mpr hnamed.short, hget]

theorem Walk.append_detour {more : List String}
    (h : Walk fs .followed place ps (.detour l more)) (hqs : GoesOn purpose qs) :
    Walk fs purpose place (ps ++ qs) (.detour l (more ++ qs)) := by
  generalize hs : Stretch.detour l more = t at h
  induction h with
  | done => cases hs
  | idle hfolder hidle _ ih => exact .idle hfolder hidle (ih hs)
  | up hfolder _ ih => exact .up hfolder (ih hs)
  | missing => cases hs
  | itself => cases hs
  | @turn place piece target rest hnamed hlink =>
      cases hs
      have hne : ¬ (rest ++ qs = [] ∧ purpose = .itself) := by
        rintro ⟨hnil, rfl⟩
        rcases hqs with hfollowed | hname
        · cases hfollowed
        · exact hname (by simp [(List.append_eq_nil_iff.mp hnil).2])
      rw [List.append_assoc]
      exact .turn (hnamed.append hqs) hlink hne
  | into hnamed hget hlink _ ih => exact .into (hnamed.append hqs) hget hlink (ih hs)

theorem Walk.of_blanks (h : Walk fs purpose place blanks s) (hblanks : ∀ b ∈ blanks, b = "") :
    ∃ e, fs.get? place = some e ∧ s = .whole (.found place e) := by
  induction h with
  | done hget => exact ⟨_, hget, rfl⟩
  | idle _ _ _ ih => exact ih fun b hb => hblanks b (List.mem_cons_of_mem _ hb)
  | up => exact absurd (hblanks ".." (by simp)) (by decide)
  | missing hnamed => exact absurd (hblanks _ (by simp)) hnamed.ne_empty
  | itself hnamed => exact absurd (hblanks _ (by simp)) hnamed.ne_empty
  | turn hnamed => exact absurd (hblanks _ (by simp)) hnamed.ne_empty
  | into hnamed => exact absurd (hblanks _ (by simp)) hnamed.ne_empty

/-- Empty pieces at the end can be left off, unless a link before them is then shown itself. -/
theorem Walk.without_blanks (h : Walk fs .followed place (ps ++ blanks) s)
    (hblanks : ∀ b ∈ blanks, b = "") (hq : q ≠ .created) :
    (∀ l e, s = .whole (.found l e) → Walk fs q place ps (.whole (.found l e))) ∧
      ∀ l more, s = .detour l more →
        (q = .itself ∧ ∃ k e, Walk fs q place ps (.whole (.found k e))) ∨
          ∃ more', more = more' ++ blanks ∧ Walk fs q place ps (.detour l more') := by
  have hnamed' : ∀ {place piece rest}, Named fs .followed place piece (rest ++ blanks) →
      Named fs q place piece rest := fun h => { h with fits := fun heq => absurd heq hq }
  induction ps generalizing place with
  | nil =>
      obtain ⟨e, hget, rfl⟩ := h.of_blanks hblanks
      refine ⟨?_, by rintro l more ⟨⟩⟩
      rintro l e' ⟨⟩
      exact .done hget
  | cons piece ps ih =>
      rw [List.cons_append] at h
      generalize hrest' : ps ++ blanks = rest at h
      cases h with
      | idle hfolder hidle hrest =>
          obtain ⟨hfound, hdetour⟩ := ih (hrest' ▸ hrest)
          refine ⟨fun l e hs => .idle hfolder hidle (hfound l e hs), fun l more hs => ?_⟩
          rcases hdetour l more hs with ⟨hq, k, e, hwalk⟩ | ⟨more', hmore, hwalk⟩
          · exact .inl ⟨hq, k, e, .idle hfolder hidle hwalk⟩
          · exact .inr ⟨more', hmore, .idle hfolder hidle hwalk⟩
      | up hfolder hrest =>
          obtain ⟨hfound, hdetour⟩ := ih (hrest' ▸ hrest)
          refine ⟨fun l e hs => .up hfolder (hfound l e hs), fun l more hs => ?_⟩
          rcases hdetour l more hs with ⟨hq, k, e, hwalk⟩ | ⟨more', hmore, hwalk⟩
          · exact .inl ⟨hq, k, e, .up hfolder hwalk⟩
          · exact .inr ⟨more', hmore, .up hfolder hwalk⟩
      | missing => exact ⟨by rintro l e ⟨⟩, by rintro l more ⟨⟩⟩
      | itself _ _ hpurpose => cases hpurpose
      | turn hnamed hlink =>
          subst hrest'
          refine ⟨by rintro l e ⟨⟩, ?_⟩
          rintro l more ⟨⟩
          by_cases hend : ps = [] ∧ q = .itself
          · obtain ⟨rfl, rfl⟩ := hend
            exact .inl ⟨rfl, _, _, .itself (hnamed' hnamed) hlink rfl⟩
          · exact .inr ⟨_, (List.append_assoc ..).symm, .turn (hnamed' hnamed) hlink hend⟩
      | into hnamed hget hlink hrest =>
          subst hrest'
          obtain ⟨hfound, hdetour⟩ := ih hrest
          have hinto : ∀ {s}, Walk fs q (piece :: place) ps s → Walk fs q place (piece :: ps) s :=
            .into (hnamed' hnamed) hget hlink
          refine ⟨fun l e hs => hinto (hfound l e hs), fun l more hs => ?_⟩
          rcases hdetour l more hs with ⟨hq, k, e, hwalk⟩ | ⟨more', hmore, hwalk⟩
          · exact .inl ⟨hq, k, e, hinto hwalk⟩
          · exact .inr ⟨more', hmore, hinto hwalk⟩

/-- What is found without following a last link is found by following it, if it is none. -/
theorem Walk.followed (h : Walk fs purpose place ps s)
    (hs : ∀ l target, s ≠ .whole (.found l (.link target))) : Walk fs .followed place ps s := by
  have hnamed' : ∀ {place piece rest}, Named fs purpose place piece rest →
      Named fs .followed place piece rest := fun h => { h with fits := fun heq => nomatch heq }
  induction h with
  | done hget => exact .done hget
  | idle hfolder hidle _ ih => exact .idle hfolder hidle (ih hs)
  | up hfolder _ ih => exact .up hfolder (ih hs)
  | missing hnamed hnone hrest => exact .missing (hnamed' hnamed) hnone hrest
  | itself => exact absurd rfl (hs _ _)
  | turn hnamed hlink => exact .turn (hnamed' hnamed) hlink (fun h => nomatch h.2)
  | into hnamed hget hlink _ ih => exact .into (hnamed' hnamed) hget hlink (ih hs)

theorem Walk.slash_notMem {more : List String} (h : Walk fs purpose place ps (.detour l more))
    (hps : ∀ piece ∈ ps, '/' ∉ piece.toList) : ∀ piece ∈ more, '/' ∉ piece.toList := by
  generalize hs : Stretch.detour l more = t at h
  induction h with
  | done => cases hs
  | idle _ _ _ ih => exact ih (fun piece hp => hps piece (List.mem_cons_of_mem _ hp)) hs
  | up _ _ ih => exact ih (fun piece hp => hps piece (List.mem_cons_of_mem _ hp)) hs
  | missing => cases hs
  | itself => cases hs
  | turn =>
      cases hs
      intro piece hp
      rcases List.mem_append.mp hp with hp | hp
      · exact Path.slash_notMem_of_mem_pieces hp
      · exact hps piece (List.mem_cons_of_mem _ hp)
  | into _ _ _ _ ih => exact ih (fun piece hp => hps piece (List.mem_cons_of_mem _ hp)) hs

/-- A place that only lacks its entry can be taken. -/
theorem Walk.free (h : Walk fs purpose place ps (.whole (.missing l)))
    (hps : ∀ piece ∈ ps, '/' ∉ piece.toList) : fs.Free l := by
  generalize hs : Stretch.whole (Target.missing l) = t at h
  induction h with
  | done => cases hs
  | idle _ _ _ ih => exact ih (fun piece hp => hps piece (List.mem_cons_of_mem _ hp)) hs
  | up _ _ ih => exact ih (fun piece hp => hps piece (List.mem_cons_of_mem _ hp)) hs
  | missing hnamed hnone =>
      cases hs
      exact ⟨hnone, ⟨⟨hnamed.ne_empty, hnamed.ne_dot, hnamed.ne_dots⟩, hps _ (by simp),
        hnamed.short⟩, hnamed.folder⟩
  | itself => cases hs
  | turn => cases hs
  | into _ _ _ _ ih => exact ih (fun piece hp => hps piece (List.mem_cons_of_mem _ hp)) hs

theorem Walk.stay (h : fs.get? place = some .folder) (hblanks : ∀ b ∈ blanks, b = "") :
    Walk fs purpose place blanks (.whole (.found place .folder)) := by
  induction blanks with
  | nil => exact .done h
  | cons b blanks ih =>
      exact .idle h (.inl (hblanks b (by simp)))
        (ih fun c hc => hblanks c (List.mem_cons_of_mem _ hc))

/-- How a place that lacked its entry is looked up once it has one: as a file to be created, or
as a folder, also with slashes after its name. -/
def Regained (purpose q : Purpose) (e : Entry) (blanks : List String) : Prop :=
  (∀ target, e ≠ .link target) ∧ (∀ b ∈ blanks, b = "") ∧
    (purpose = .created ∧ q = .created ∧ blanks = [] ∨ q = .followed ∧ e = .folder)

theorem Named.regained (h : Named fs purpose place piece rest) (k : Keeps fs after)
    (hr : Regained purpose q e blanks) : Named after q place piece (rest ++ blanks) := by
  refine { h with folder := k.folder h.folder, fits := ?_ }
  intro hq hall
  rcases hr.2.2 with ⟨hpurpose, -, rfl⟩ | ⟨hq', -⟩
  · rw [List.append_nil] at hall ⊢
    exact h.fits hpurpose hall
  · rw [hq'] at hq
    cases hq

theorem Walk.regain (h : Walk fs purpose place ps (.whole (.missing l))) (k : Keeps fs after)
    (hget : after.get? l = some e) (hr : Regained purpose q e blanks) :
    Walk after q place (ps ++ blanks) (.whole (.found l e)) := by
  generalize hs : Stretch.whole (Target.missing l) = t at h
  induction h with
  | done => cases hs
  | idle hfolder hidle _ ih => exact .idle (k.folder hfolder) hidle (ih hs)
  | up hfolder _ ih => exact .up (k.folder hfolder) (ih hs)
  | missing hnamed _ hrest =>
      cases hs
      refine .into (hnamed.regained k hr) hget hr.1 ?_
      rcases hr.2.2 with ⟨hpurpose, -, rfl⟩ | ⟨-, rfl⟩
      · rw [hnamed.fits hpurpose hrest]
        exact .done hget
      · refine .stay hget fun b hb => ?_
        rcases List.mem_append.mp hb with hb | hb
        · simpa using List.all_eq_true.mp hrest b hb
        · exact hr.2.1 b hb
  | itself => cases hs
  | turn => cases hs
  | into hnamed hold hlink _ ih =>
      obtain ⟨e', he', halike⟩ := k.get? hold
      refine .into (hnamed.regained k hr) he' ?_ (ih hs)
      rintro target rfl
      cases halike
      exact hlink target rfl

theorem Walk.regain_detour {more : List String} (h : Walk fs purpose place ps (.detour l more))
    (k : Keeps fs after) (hr : Regained purpose q e blanks) :
    Walk after q place (ps ++ blanks) (.detour l (more ++ blanks)) := by
  generalize hs : Stretch.detour l more = t at h
  induction h with
  | done => cases hs
  | idle hfolder hidle _ ih => exact .idle (k.folder hfolder) hidle (ih hs)
  | up hfolder _ ih => exact .up (k.folder hfolder) (ih hs)
  | missing => cases hs
  | itself => cases hs
  | turn hnamed hlink =>
      cases hs
      obtain ⟨e', he', halike⟩ := k.get? hlink
      cases halike
      rw [List.append_assoc]
      refine .turn (hnamed.regained k hr) he' ?_
      rintro ⟨-, hq⟩
      rcases hr.2.2 with ⟨-, hq', -⟩ | ⟨hq', -⟩
      · rw [hq'] at hq
        cases hq
      · rw [hq'] at hq
        cases hq
  | into hnamed hold hlink _ ih =>
      obtain ⟨e', he', halike⟩ := k.get? hold
      refine .into (hnamed.regained k hr) he' ?_ (ih hs)
      rintro target rfl
      cases halike
      exact hlink target rfl

/-- A way that has begun, and goes on past a last link, does not end at one. -/
theorem Walk.ne_link (hfs : fs.WellFormed) (hpurpose : purpose ≠ .itself)
    (h : Walk fs purpose place ps (.whole (.found l e)))
    (hstart : ps ≠ [] ∨ ∀ t, fs.get? place ≠ some (.link t)) : ∀ t, e ≠ .link t := by
  generalize hs : Stretch.whole (Target.found l e) = s at h
  induction h with
  | done hget =>
      cases hs
      rintro t rfl
      exact hstart.elim (absurd rfl) fun hne => hne t hget
  | idle hfolder _ _ ih => exact ih (.inr fun t => by simp [hfolder]) hs
  | @up place rest s hfolder _ ih =>
      refine ih (.inr fun t => ?_) hs
      cases place with
      | nil => simp [hfolder]
      | cons name place => simp [(hfs.placed_of_get? (by simp) hfolder).2]
  | missing => cases hs
  | itself _ _ hitself => exact absurd hitself hpurpose
  | turn => cases hs
  | into _ hget hlink _ ih =>
      refine ih (.inr fun t heq => ?_) hs
      rw [hget] at heq
      cases heq
      exact hlink t rfl

theorem Walk.more_ne_nil {more : List String} (h : Walk fs purpose place ps (.detour l more)) :
    more ≠ [] := by
  generalize hs : Stretch.detour l more = s at h
  induction h with
  | done => cases hs
  | idle _ _ _ ih => exact ih hs
  | up _ _ ih => exact ih hs
  | missing => cases hs
  | itself => cases hs
  | turn =>
      cases hs
      exact fun hnil => Path.pieces_ne_nil _ (List.append_eq_nil_iff.mp hnil).1
  | into _ _ _ _ ih => exact ih hs

end Docset.FileSystem
