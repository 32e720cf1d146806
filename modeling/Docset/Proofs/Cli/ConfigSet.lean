import Docset.Cli.Run
import Docset.Proofs.Config.Loading

/-!
# Setting one value from the command line

The command loads the configuration as every other command does, with the environment on
top of the file, changes the value of one key and saves the whole. What a later run finds
in the file under another key is therefore what was in the file before, unless the
environment had put something else in its place: then that has become part of the file.
-/
namespace Docset.Cli
open Config

variable {host : Host} {env loaded later : Environment} {args : List String} {stdin : ByteArray}
  {fs after : FileSystem} {i : Invocation} {c : Config}
  {key value stdout : String} {file : Path}

theorem Failure.code_outcome_ne_zero (f : Failure) : f.outcome.code ≠ 0 := by
  unfold Failure.outcome
  split
  · decide
  · exact Nat.one_ne_zero

theorem carryOut_of_run (hok : (run host env args stdin fs).1.code = 0)
    (hread : Invocation.read args = .ok i) (henv : EnvFile.load? env fs = some loaded) :
    ∃ c stdout, Config.load host loaded fs = .ok c ∧
      carryOut host loaded stdin c i fs = .ok stdout (run host env args stdin fs).2 := by
  have hrun : run host env args stdin fs = runInvocation host loaded i stdin fs := by
    unfold run
    rw [hread, henv]
  rw [hrun] at hok ⊢
  unfold runInvocation at hok ⊢
  cases hload : Config.load host loaded fs with
  | error e =>
      rw [hload] at hok
      exact absurd hok (Failure.code_outcome_ne_zero _)
  | ok c =>
      simp only [hload] at hok
      cases hcarry : carryOut host loaded stdin c i fs with
      | ok stdout after => exact ⟨c, stdout, rfl, by simp only [hcarry]⟩
      | error e after =>
          rw [hcarry] at hok
          exact absurd hok (Failure.code_outcome_ne_zero _)

theorem save_of_configSet (h : configSet env c key value fs = .ok stdout after) :
    ∃ k v, k.name = normalizeKey key ∧ k.read value = .ok v ∧
      (c.replace k v).save env fs = .ok () after := by
  unfold configSet at h
  cases hset : Config.setNamed (normalizeKey key) value c with
  | error e left =>
      rw [hset] at h
      cases h
  | ok u changed =>
      rw [hset] at h
      obtain ⟨k, v, hname, hread, rfl⟩ := setNamed_eq_ok_iff.mp hset
      obtain ⟨u, mid, hsave, h⟩ := FileAction.bind_eq_ok_iff.mp h
      obtain ⟨-, rfl⟩ := FileAction.pure_eq_ok_iff.mp h
      exact ⟨k, v, hname, hread, FileAction.mapError_eq_ok_iff.mp hsave⟩

theorem stored_of_load (h : Config.load host env fs = .ok c)
    (hlater : filePath? later = filePath? env) (hnone : ∀ k, later.override? k = none) :
    ∃ before, Config.load host later fs = .ok before ∧
      c = before.override (.ofEnvironment env) := by
  have hstored : stored host later fs = stored host env fs := by
    unfold stored
    rw [hlater]
  unfold Config.load at h ⊢
  rw [hstored]
  cases hbefore : stored host env fs with
  | error e =>
      rw [hbefore] at h
      cases h
  | ok before =>
      rw [hbefore] at h
      refine ⟨before, ?_, (Except.ok.inj h).symm⟩
      rw [Except.map, override_of_none hnone]

/-- After a value was set, the file holds what was loaded for the command, with that value in it. -/
theorem load_of_run_configSet (hfs : fs.WellFormed) (hread : Invocation.read args = .ok i)
    (hcommand : i.command = .configSet key value) (henv : EnvFile.load? env fs = some loaded)
    (hok : (run host env args stdin fs).1.code = 0)
    (hkept : ∀ file ∈ filePath? loaded, (run host env args stdin fs).2.isFile file)
    (hlater : filePath? later = filePath? loaded) (hnone : ∀ k, later.override? k = none) :
    ∃ before k v, Config.load host later fs = .ok before ∧ k.name = normalizeKey key ∧
      k.read value = .ok v ∧
      Config.load host later (run host env args stdin fs).2 =
        .ok (if (filePath? loaded).isSome then
          (before.override (.ofEnvironment loaded)).replace k v else before) := by
  obtain ⟨c, stdout, hload, hcarry⟩ := carryOut_of_run hok hread henv
  obtain ⟨before, hbefore, rfl⟩ := stored_of_load hload hlater hnone
  unfold carryOut at hcarry
  rw [hcommand] at hcarry
  obtain ⟨k, v, hname, hvalue, hsave⟩ := save_of_configSet hcarry
  refine ⟨before, k, v, hbefore, hname, hvalue, ?_⟩
  cases hfile : filePath? loaded with
  | none =>
      -- There is nowhere to save to, and so nothing changes.
      unfold Config.save at hsave
      rw [hfile] at hsave
      obtain ⟨-, hafter⟩ := FileAction.pure_eq_ok_iff.mp hsave
      rw [← hafter]
      exact hbefore
  | some file =>
      rcases load_of_save host hfs hfile (hlater.trans hfile) hsave with hchanged | ⟨l, hvoid⟩
      · rwa [override_of_none hnone] at hchanged
      · exact absurd hvoid (FileSystem.not_void_of_isFile (hkept file hfile))

/-- Setting a key changes in the file what is under that key, and besides it only what the
environment of the command overrides: that is stored in the place of what was there. -/
theorem configSet_changes_key_and_overrides (hfs : fs.WellFormed)
    (hread : Invocation.read args = .ok i) (hcommand : i.command = .configSet key value)
    (henv : EnvFile.load? env fs = some loaded) (hok : (run host env args stdin fs).1.code = 0)
    (hkept : ∀ file ∈ filePath? loaded, (run host env args stdin fs).2.isFile file)
    (hlater : filePath? later = filePath? loaded) (hnone : ∀ k, later.override? k = none) :
    ∃ before changed, Config.load host later fs = .ok before ∧
      Config.load host later (run host env args stdin fs).2 = .ok changed ∧
      (∀ k : Key, k.name ≠ normalizeKey key → loaded.override? k = none →
        changed.get k = before.get k) ∧
      ((filePath? loaded).isSome → ∃ k v, k.name = normalizeKey key ∧ k.read value = .ok v ∧
        changed.field k = v ∧
        ∀ j ≠ k, changed.field j = (loaded.override? j).getD (before.field j)) := by
  obtain ⟨before, k, v, hbefore, hname, hvalue, hchanged⟩ :=
    load_of_run_configSet hfs hread hcommand henv hok hkept hlater hnone
  have hother : ∀ j ≠ k, ((before.override (.ofEnvironment loaded)).replace k v).field j =
      (loaded.override? j).getD (before.field j) := by
    intro j hj
    rw [field_replace_of_ne _ v hj, field_override]
  refine ⟨before, _, hbefore, hchanged, ?_, ?_⟩
  · intro j hj hoverride
    have hne : j ≠ k := by
      intro heq
      exact hj (heq ▸ hname)
    split
    · rw [get_eq, get_eq, hother j hne, hoverride, Option.getD_none]
    · rfl
  · intro hsome
    rw [if_pos hsome]
    exact ⟨k, v, hname, hvalue, field_replace_self _ k v, hother⟩

def homeEnvironment (more : List (String × String)) : Environment := ⟨("HOME", "/h") :: more⟩

theorem configSet_changes_key_and_overrides_output_dir :
    ∃ outcome after before changed,
      run .bare (homeEnvironment [("SHELF_SOURCE_ROOT", "src")])
        ["config", "set", "output-dir", "out"] .empty (homeWith "\x7b\x7d") = (outcome, after) ∧
      outcome.code = 0 ∧
      Config.load .bare (homeEnvironment []) (homeWith "\x7b\x7d") = .ok before ∧
      Config.load .bare (homeEnvironment []) after = .ok changed ∧
      changed.get .storybookDir = before.get .storybookDir ∧
      changed.outputDir = ⟨"out"⟩ ∧ changed.sourceRoot = ⟨"src"⟩ := by
  have hread : (Invocation.read ["config", "set", "output-dir", "out"]).toOption =
      some ⟨false, .configSet "output-dir" "out"⟩ := by decide +kernel
  have henv : EnvFile.load? (homeEnvironment [("SHELF_SOURCE_ROOT", "src")])
      (homeWith "\x7b\x7d") = some (homeEnvironment [("SHELF_SOURCE_ROOT", "src")]) := by
    decide +kernel
  have hok : (run .bare (homeEnvironment [("SHELF_SOURCE_ROOT", "src")])
      ["config", "set", "output-dir", "out"] .empty (homeWith "\x7b\x7d")).1.code = 0 := by
    decide +kernel
  have hlater : filePath? (homeEnvironment []) =
      filePath? (homeEnvironment [("SHELF_SOURCE_ROOT", "src")]) := by decide +kernel
  obtain ⟨before, changed, hbefore, hchanged, hsame, hset⟩ :=
    configSet_changes_key_and_overrides ⟨by decide +kernel, by decide +kernel⟩
      (FileSystem.except_toOption_eq_some_iff.mp hread) rfl henv hok (by decide +kernel) hlater
      (by intro k; cases k <;> rfl)
  obtain ⟨k, v, hname, hvalue, hfield, hother⟩ := hset (by decide +kernel)
  obtain rfl : k = .outputDir := Key.name_injective (hname.trans (by decide +kernel))
  cases hvalue
  exact ⟨_, _, before, changed, rfl, hok, hbefore, hchanged,
    hsame .storybookDir (by decide +kernel) rfl, hfield, hother .sourceRoot (by decide)⟩

/-- A value that only the environment had is in the file after another key was set. -/
theorem configSet_stores_override :
    ∃ outcome after before changed,
      run .bare (homeEnvironment [("SHELF_OUTPUT_DIR", "elsewhere")])
        ["config", "set", "max_file_size_kb", "100"] .empty (homeWith "\x7b\x7d") =
          (outcome, after) ∧ outcome.code = 0 ∧
      Config.load .bare (homeEnvironment []) (homeWith "\x7b\x7d") = .ok before ∧
      Config.load .bare (homeEnvironment []) after = .ok changed ∧
      Key.outputDir.name ≠ normalizeKey "max_file_size_kb" ∧
      before.get .outputDir = "docset" ∧ changed.get .outputDir = "elsewhere" := by
  have hread : (Invocation.read ["config", "set", "max_file_size_kb", "100"]).toOption =
      some ⟨false, .configSet "max_file_size_kb" "100"⟩ := by decide +kernel
  have henv : EnvFile.load? (homeEnvironment [("SHELF_OUTPUT_DIR", "elsewhere")])
      (homeWith "\x7b\x7d") = some (homeEnvironment [("SHELF_OUTPUT_DIR", "elsewhere")]) := by
    decide +kernel
  have hok : (run .bare (homeEnvironment [("SHELF_OUTPUT_DIR", "elsewhere")])
      ["config", "set", "max_file_size_kb", "100"] .empty (homeWith "\x7b\x7d")).1.code = 0 := by
    decide +kernel
  have hlater : filePath? (homeEnvironment []) =
      filePath? (homeEnvironment [("SHELF_OUTPUT_DIR", "elsewhere")]) := by decide +kernel
  obtain ⟨before, k, v, hbefore, hname, -, hchanged⟩ :=
    load_of_run_configSet ⟨by decide +kernel, by decide +kernel⟩
      (FileSystem.except_toOption_eq_some_iff.mp hread) rfl henv hok (by decide +kernel) hlater
      (by intro k; cases k <;> rfl)
  rw [if_pos (by decide +kernel)] at hchanged
  have hdefault : (Config.load .bare (homeEnvironment []) (homeWith "\x7b\x7d")).toOption.map
      (·.get .outputDir) = some "docset" := by decide +kernel
  have hne : Key.outputDir ≠ k := by
    intro heq
    rw [← heq] at hname
    exact absurd hname (by decide +kernel)
  refine ⟨_, _, before, _, rfl, hok, hbefore, hchanged, by decide +kernel, ?_, ?_⟩
  · rw [hbefore] at hdefault
    exact Option.some.inj hdefault
  · rw [get_eq, field_replace_of_ne _ v hne, field_override]
    rfl

end Docset.Cli
