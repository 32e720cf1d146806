import Docset.Config.Record
import Docset.Proofs.Build.Outcome
import Docset.Proofs.Config.Reachable
import Docset.Proofs.Files.Order

/-!
# The limit on the size of story modules

The limit is configured in units of 1024 bytes and needed in bytes, as a number of 64 bits.
Not every number that can be configured has a product of 64 bits. Where it has one, the
product is exact, and a larger limit lets a search find at least the same files. Where it
has none, there is no limit to search with: scanning a folder fails, and so does a build as
soon as it comes to surveying the sources, and no other step can fail like this.
-/
namespace Docset

/-! ## Wider searches -/

section Search
variable {fs : FileSystem} {f g : FileFilter}

theorem flatMap_sublist {α β : Type} {f g : α → List β} (h : ∀ a, (f a).Sublist (g a))
    (as : List α) : (as.flatMap f).Sublist (as.flatMap g) := by
  induction as with
  | nil => exact List.Sublist.refl _
  | cons a as ih =>
      rw [List.flatMap_cons, List.flatMap_cons]
      exact (h a).append ih

/-- Whatever one search is for, the other is for as well, and both look in the same places. -/
structure FileFilter.Widens (f g : FileFilter) : Prop where
  admits : ∀ name, f.admits name = g.admits name
  keeps : ∀ path name entry, f.keeps path name entry → g.keeps path name entry

theorem FileFilter.Widens.sublist_one (h : f.Widens g) (path : Path) (name : String)
    (entry : Entry) : (if f.keeps path name entry then [path] else []).Sublist
      (if g.keeps path name entry then [path] else []) := by
  by_cases hkeeps : f.keeps path name entry
  · rw [if_pos hkeeps, if_pos (h.keeps path name entry hkeeps)]
  · rw [if_neg hkeeps]
    exact List.nil_sublist _

theorem FileFilter.Widens.filesBelow (h : f.Widens g) (depth : Nat) (path : Path)
    (place : Location) : (fs.filesBelow f depth path place).Sublist
      (fs.filesBelow g depth path place) := by
  induction depth generalizing path place with
  | zero => exact List.Sublist.refl _
  | succ depth ih =>
      unfold FileSystem.filesBelow
      split
      · exact List.Sublist.refl _
      · apply flatMap_sublist
        rintro ⟨name, entry⟩
        simp only [h.admits name]
        split
        · cases entry with
          | folder => exact ih _ _
          | _ => exact h.sublist_one _ _ _
        · exact List.Sublist.refl _

theorem FileFilter.Widens.findFiles (h : f.Widens g) (root : Path) :
    (fs.findFiles f root).Sublist (fs.findFiles g root) := by
  unfold FileSystem.findFiles
  apply Path.sublist_mergeSort
  split
  · exact h.filesBelow _ _ _
  · split
    · exact h.filesBelow _ _ _
    · exact List.Sublist.refl _
  · exact h.sublist_one _ _ _
  · exact List.Sublist.refl _

theorem FileFilter.widens_of_limit_le {limit limit' : UInt64} (h : limit ≤ limit') :
    { f with maxSize := some limit }.Widens { f with maxSize := some limit' } := by
  constructor
  · intro name
    rfl
  · intro path name entry
    cases entry with
    | file bytes runnable =>
        have hle := UInt64.le_iff_toNat_le.mp h
        simp only [keeps, keepsName, keepsSize, Bool.and_eq_true, Bool.or_eq_true,
          decide_eq_true_eq]
        rintro ⟨hname, hsize⟩
        exact ⟨hname, hsize.imp_right fun hsize => hsize.trans hle⟩
    | _ => exact id

end Search

/-! ## The limit in bytes -/

namespace Config

variable {c : Config}

/-- The limit in bytes is there exactly if it fits 64 bits, and then it is exact. -/
theorem maxFileSize?_eq_some_iff {limit : UInt64} :
    c.maxFileSize? = some limit ↔ limit.toNat = c.maxFileSizeKb.toNat * 1024 := by
  unfold maxFileSize?
  split
  · rename_i hfits
    have hexact : (c.maxFileSizeKb * 1024).toNat = c.maxFileSizeKb.toNat * 1024 := by
      rw [UInt64.toNat_mul]
      exact Nat.mod_eq_of_lt hfits
    rw [Option.some_inj, ← UInt64.toNat_inj, hexact, eq_comm]
  · rename_i hover
    have hlt := limit.toNat_lt_size
    constructor
    · intro h
      cases h
    · omega

def LimitOverflows (c : Config) : Prop := UInt64.size ≤ c.maxFileSizeKb.toNat * 1024

instance (c : Config) : Decidable c.LimitOverflows := inferInstanceAs (Decidable (_ ≤ _))

theorem maxFileSize?_eq_none_iff : c.maxFileSize? = none ↔ c.LimitOverflows := by
  unfold maxFileSize? LimitOverflows
  rw [← Nat.not_lt]
  split
  · rename_i hfits
    simp [hfits]
  · rename_i hover
    simp [hover]

theorem filter?_eq_none_iff : c.filter? = none ↔ c.LimitOverflows := by
  rw [filter?, Option.map_eq_none_iff, maxFileSize?_eq_none_iff]

theorem exists_limit (h : ¬ c.LimitOverflows) :
    ∃ limit, c.maxFileSize? = some limit ∧ limit.toNat = c.maxFileSizeKb.toNat * 1024 := by
  cases hlimit : c.maxFileSize? with
  | none => exact absurd (maxFileSize?_eq_none_iff.mp hlimit) h
  | some limit => exact ⟨limit, rfl, maxFileSize?_eq_some_iff.mp hlimit⟩

theorem findFiles_of_raised {n : UInt64} (hle : c.maxFileSizeKb ≤ n)
    (hn : ¬ { c with maxFileSizeKb := n }.LimitOverflows) :
    ∃ f g, c.filter? = some f ∧ { c with maxFileSizeKb := n }.filter? = some g ∧
      ∀ (fs : FileSystem) (root : Path), (fs.findFiles f root).Sublist (fs.findFiles g root) := by
  have hbytes : c.maxFileSizeKb.toNat * 1024 ≤ n.toNat * 1024 :=
    Nat.mul_le_mul_right 1024 (UInt64.le_iff_toNat_le.mp hle)
  have hc : ¬ c.LimitOverflows := fun hover => hn (Nat.le_trans hover hbytes)
  obtain ⟨limit, hsome, hvalue⟩ := exists_limit hc
  obtain ⟨limit', hsome', hvalue'⟩ := exists_limit hn
  refine ⟨_, _, by rw [filter?, hsome, Option.map_some], by rw [filter?, hsome', Option.map_some],
    fun fs root => ?_⟩
  apply FileFilter.Widens.findFiles
  apply FileFilter.widens_of_limit_le
    (f := { suffixes := c.storySuffixes, exclude := c.storybookDir.fileName?.toList })
  rwa [UInt64.le_iff_toNat_le, hvalue, hvalue']

end Config

/-! ## Where the limit is needed -/

theorem map_eq_error_iff {ε α β : Type} {x : Except ε α} {f : α → β} {e : ε} :
    x.map f = .error e ↔ x = .error e := by
  cases x with
  | error e' => simp [Except.map]
  | ok a => simp [Except.map]

theorem Survey.prepare_ne_overflow (host : Host) (c : Config) :
    Survey.prepare host c ≠ .error .sizeOverflow := by
  unfold Survey.prepare
  cases c.scan.compile host.compile with
  | error e => simp [Except.mapError]
  | ok u => simp [Except.mapError]

theorem Survey.scanFolder_eq_overflow_iff {host : Host} {fs : FileSystem} {c : Config}
    {folder : Path} :
    Survey.scanFolder host fs c folder = .error .sizeOverflow ↔ c.LimitOverflows := by
  rw [← Config.filter?_eq_none_iff]
  unfold Survey.scanFolder
  cases c.filter? with
  | none => simp
  | some f => simp [map_eq_error_iff, prepare_ne_overflow]

theorem Survey.resolveFolder_ne_overflow (fs : FileSystem) (p : Path) :
    Survey.resolveFolder fs p ≠ .error .sizeOverflow := by
  unfold Survey.resolveFolder
  split
  · simp
  · split <;> simp

theorem Survey.run_eq_overflow_iff {host : Host} {fs : FileSystem} {c : Config}
    {request : Survey.Request} :
    Survey.run host fs c request = .error .sizeOverflow ↔
      c.LimitOverflows ∧ fs.isFile request.path = false ∧
        ∃ folder, Survey.resolveFolder fs request.path = .ok folder := by
  unfold Survey.run
  cases hfile : fs.isFile request.path with
  | true => simp [map_eq_error_iff, prepare_ne_overflow]
  | false =>
      simp only [Bool.false_eq_true, if_false, true_and]
      have hresolve := resolveFolder_ne_overflow fs request.path
      cases hfolder : Survey.resolveFolder fs request.path with
      | error e =>
          rw [hfolder] at hresolve
          simpa using hresolve
      | ok folder =>
          rw [map_eq_error_iff, scanFolder_eq_overflow_iff]
          simp

namespace Build

open FileAction

variable {host : Host} {setting : Command.Setting} {c : Config} {root : Path}
  {fs after : FileSystem}

theorem never_perform (i : Inclusion) (output : Path) :
    Never .sizeOverflow (i.perform output) := by
  unfold Inclusion.perform
  apply never_bind
  · apply never_mapError
    intro e
    cases e <;> simp [copyError]
  · intro _
    apply never_bind
    · apply never_forM
      rintro ⟨file, text⟩
      apply never_bind (never_inspect fun _ => by simp)
      intro isFile
      cases isFile with
      | true => exact never_mapError (by simp) _
      | false => exact never_pure ()
    · intro _
      exact never_pure _

theorem never_deliver (c : Config) (root output : Path) (r : Response) :
    Never .sizeOverflow (deliver c root output r) := by
  unfold deliver
  apply never_bind (never_mapError (by simp) _)
  intro _
  apply never_bind
  · exact never_bind (never_mapError (by simp) _) fun _ => never_pure _
  intro file
  apply never_bind (never_inspect fun _ => by simp)
  intro isFolder
  cases isFolder with
  | true => exact never_bind (never_perform _ _) fun _ => never_pure _
  | false => exact never_pure _

theorem survey_eq_overflow_iff {text : Option String} :
    survey host c root text fs = .error .sizeOverflow after ↔
      c.LimitOverflows ∧ fs = after := by
  unfold survey
  rw [inspect_eq_error_iff, map_eq_error_iff, Survey.scanFolder_eq_overflow_iff]

/-- Finding the entries needs the limit exactly if the sources are surveyed, and what the
project's tools did before that stays done. -/
theorem compose_eq_overflow_iff {skip : Bool} :
    compose host setting c root skip fs = .error .sizeOverflow after ↔
      c.LimitOverflows ∧
        ∃ a, Attempted host setting c root fs skip a after ∧ a.Falls := by
  unfold compose
  constructor
  · intro h
    cases skip with
    | true =>
        obtain ⟨hover, rfl⟩ := survey_eq_overflow_iff.mp h
        exact ⟨hover, .skipped, .skipped, trivial⟩
    | false =>
        rcases bind_eq_error_iff.mp h with hattempt | ⟨outcome, mid, hattempt, hrest⟩
        · exact absurd hattempt attempt_ne_error
        · rcases attempt_eq_ok_iff.mp hattempt with ⟨stories, rfl, -⟩ | ⟨e, rfl, herror⟩
          · exact absurd hrest (pure_ne_error _)
          · obtain ⟨hover, rfl⟩ := survey_eq_overflow_iff.mp hrest
            exact ⟨hover, .failed e, .failed herror, trivial⟩
  · rintro ⟨hover, a, hattempt, hfalls⟩
    cases hattempt with
    | skipped => exact survey_eq_overflow_iff.mpr ⟨hover, rfl⟩
    | failed herror =>
        apply bind_eq_error_iff.mpr
        exact .inr ⟨_, after, attempt_eq_ok_iff.mpr (.inr ⟨_, rfl, herror⟩),
          survey_eq_overflow_iff.mpr ⟨hover, rfl⟩⟩
    | extracted => exact hfalls.elim

theorem run_eq_overflow_iff {request : Request} :
    run host setting c request fs = .error .sizeOverflow after ↔
      c.LimitOverflows ∧ ∃ root a,
        Survey.resolveFolder fs request.root = .ok root ∧
        Attempted host setting c root fs request.skipExternal a after ∧ a.Falls := by
  unfold run
  rw [bind_eq_error_iff]
  constructor
  · rintro (hinspect | ⟨root, mid, hinspect, h⟩)
    · exact absurd (inspect_eq_error_iff.mp hinspect).1 (Survey.resolveFolder_ne_overflow fs _)
    · obtain ⟨hroot, rfl⟩ := inspect_eq_ok_iff.mp hinspect
      rcases bind_eq_error_iff.mp h with hcompose | ⟨r, mid, -, hdeliver⟩
      · obtain ⟨hover, a, hattempt, hfalls⟩ := compose_eq_overflow_iff.mp hcompose
        exact ⟨hover, root, a, hroot, hattempt, hfalls⟩
      · cases houtput : request.output with
        | none =>
            rw [houtput] at hdeliver
            exact absurd hdeliver (pure_ne_error r)
        | some output =>
            rw [houtput] at hdeliver
            exact absurd hdeliver (never_deliver c root output r mid after)
  · rintro ⟨hover, root, a, hroot, hattempt, hfalls⟩
    refine .inr ⟨root, fs, inspect_eq_ok_iff.mpr ⟨hroot, rfl⟩, bind_eq_error_iff.mpr (.inl ?_)⟩
    exact compose_eq_overflow_iff.mpr ⟨hover, a, hattempt, hfalls⟩

end Build

namespace Config

/-- The limit in bytes is there exactly if it fits 64 bits, and then it is exact. Where it does not
fit, scanning a folder fails, and so does a build that gets to surveying the sources, and nothing
else does on account of the limit. As long as it fits, raising it finds at least the same files. -/
theorem size_limit_exact (c : Config) :
    (∀ limit, c.maxFileSize? = some limit ↔ limit.toNat = c.maxFileSizeKb.toNat * 1024) ∧
      (∀ host fs request, Survey.run host fs c request = .error .sizeOverflow ↔
        c.LimitOverflows ∧ fs.isFile request.path = false ∧
          ∃ folder, Survey.resolveFolder fs request.path = .ok folder) ∧
      (∀ host setting request fs after,
        Build.run host setting c request fs = .error .sizeOverflow after ↔
          c.LimitOverflows ∧ ∃ root a,
          Survey.resolveFolder fs request.root = .ok root ∧
          Build.Attempted host setting c root fs request.skipExternal a after ∧ a.Falls) ∧
      ∀ n, c.maxFileSizeKb ≤ n → ¬ { c with maxFileSizeKb := n }.LimitOverflows →
        ∃ f g, c.filter? = some f ∧ { c with maxFileSizeKb := n }.filter? = some g ∧
          ∀ (fs : FileSystem) (root : Path),
            (fs.findFiles f root).Sublist (fs.findFiles g root) :=
  ⟨fun _ => maxFileSize?_eq_some_iff, fun _ _ _ => Survey.run_eq_overflow_iff,
    fun _ _ _ _ _ => Build.run_eq_overflow_iff, fun _ => findFiles_of_raised⟩

theorem size_limit_exact_at_largest :
    ∃ f g, filter? {} = some f ∧
      filter? { maxFileSizeKb := 18014398509481983 } = some g ∧
      ∀ (fs : FileSystem) (root : Path), (fs.findFiles f root).Sublist (fs.findFiles g root) := by
  obtain ⟨-, -, -, hraised⟩ := size_limit_exact {}
  exact hraised 18014398509481983 (by decide) (by decide)

/-- The next limit is accepted as a setting and in a document, and then there is no limit in bytes:
scanning the folder fails, and so does a build that surveys it. -/
theorem size_limit_overflows :
    ∃ c, trySetAll {} [("max_file_size_kb", "18014398509481984")] = c ∧
      setNamed "max_file_size_kb" "18014398509481984" {} = .ok () c ∧
      parse? "\x7b\"max_file_size_kb\": 18014398509481984\x7d" = some c ∧
      c.maxFileSize? = none ∧
      Survey.run .bare Build.smallProject c ⟨⟨"/p"⟩⟩ = .error .sizeOverflow ∧
      Build.run .bare {} c { root := ⟨"/p"⟩, skipExternal := true } Build.smallProject =
        .error .sizeOverflow Build.smallProject := by
  refine ⟨{ maxFileSizeKb := 18014398509481984 }, ?_, ?_, ?_, ?_, ?_, ?_⟩
  · decide +kernel
  · rfl
  · decide +kernel
  · decide +kernel
  · decide +kernel
  · apply Build.run_eq_overflow_iff.mpr
    exact ⟨by decide, ⟨"/p"⟩, .skipped, by decide +kernel, .skipped, trivial⟩

end Config

end Docset
