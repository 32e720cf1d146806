import Docset.Files.System

/-!
# When operations on files succeed

An operation made of several ones succeeds exactly if each of them does, one after the
other on what the one before it left behind. The lemmas here say so for every way in
which operations are put together, so that a successful run can be taken apart into the
successful steps it is made of. What an operation leaves behind is there after a failure as
well, up to the step that failed.
-/
namespace Docset.FileAction

variable {ε δ α β : Type} {e : ε} {fs after : FileSystem}

theorem pure_eq_ok_iff {a b : α} :
    (pure a : FileAction ε α) fs = .ok b after ↔ a = b ∧ fs = after := by
  change EStateM.Result.ok a fs = .ok b after ↔ _
  rw [EStateM.Result.ok.injEq]

theorem bind_eq_ok_iff {act : FileAction ε α} {next : α → FileAction ε β} {b : β} :
    (act >>= next) fs = .ok b after ↔
      ∃ a mid, act fs = .ok a mid ∧ next a mid = .ok b after := by
  change EStateM.bind act next fs = .ok b after ↔ _
  unfold EStateM.bind
  cases act fs with
  | ok a mid =>
      constructor
      · intro h
        exact ⟨a, mid, rfl, h⟩
      · rintro ⟨a', mid', heq, h⟩
        cases heq
        exact h
  | error e mid =>
      constructor
      · intro h
        cases h
      · rintro ⟨a', mid', heq, -⟩
        cases heq

theorem inspect_eq_ok_iff {f : FileSystem → Except ε α} {a : α} :
    inspect f fs = .ok a after ↔ f fs = .ok a ∧ fs = after := by
  unfold inspect
  cases f fs with
  | ok b => simp
  | error e => simp

theorem change_eq_ok_iff {f : FileSystem → Except ε FileSystem} {u : Unit} :
    change f fs = .ok u after ↔ f fs = .ok after := by
  unfold change
  cases f fs with
  | ok b => simp
  | error e => simp

theorem mapError_eq_ok_iff {f : ε → δ} {act : FileAction ε α} {a : α} :
    mapError f act fs = .ok a after ↔ act fs = .ok a after := by
  unfold mapError
  cases act fs with
  | ok b => simp
  | error e => simp

theorem attempt_eq_ok_iff {act : FileAction ε α} {r : Except ε α} :
    (attempt act : FileAction δ (Except ε α)) fs = .ok r after ↔
      (∃ a, r = .ok a ∧ act fs = .ok a after) ∨ ∃ e, r = .error e ∧ act fs = .error e after := by
  unfold attempt
  cases act fs with
  | ok a mid =>
      simp only [EStateM.Result.ok.injEq, reduceCtorEq, and_false, exists_false, or_false]
      constructor
      · rintro ⟨rfl, rfl⟩
        exact ⟨a, rfl, rfl, rfl⟩
      · rintro ⟨b, rfl, rfl, rfl⟩
        exact ⟨rfl, rfl⟩
  | error e mid =>
      simp only [EStateM.Result.ok.injEq, EStateM.Result.error.injEq, reduceCtorEq, and_false,
        exists_false, false_or]
      constructor
      · rintro ⟨rfl, rfl⟩
        exact ⟨e, rfl, rfl, rfl⟩
      · rintro ⟨b, rfl, rfl, rfl⟩
        exact ⟨rfl, rfl⟩

def result? (act : FileAction ε α) (fs : FileSystem) : Option α :=
  match act fs with
  | .ok a _ => some a
  | .error _ _ => none

theorem result?_eq_some_iff {act : FileAction ε α} {a : α} :
    act.result? fs = some a ↔ ∃ after, act fs = .ok a after := by
  unfold result?
  cases act fs with
  | ok b mid => simp
  | error e mid => simp

def outcome? (act : FileAction ε α) (fs : FileSystem) : Option (α × FileSystem) :=
  match act fs with
  | .ok a after => some (a, after)
  | .error _ _ => none

theorem outcome?_eq_some_iff {act : FileAction ε α} {a : α} :
    act.outcome? fs = some (a, after) ↔ act fs = .ok a after := by
  unfold outcome?
  cases act fs with
  | ok b mid => simp
  | error e mid => simp

/-- What an operation leaves behind, whatever comes of it. -/
def left (act : FileAction ε α) (fs : FileSystem) : FileSystem :=
  match act fs with
  | .ok _ after => after
  | .error _ after => after

theorem left_of_ok {act : FileAction ε α} {a : α} (h : act fs = .ok a after) :
    act.left fs = after := by
  unfold left
  rw [h]

@[simp] theorem left_inspect (f : FileSystem → Except ε α) : (inspect f).left fs = fs := by
  unfold left inspect
  cases f fs <;> rfl

@[simp] theorem left_mapError (f : ε → δ) (act : FileAction ε α) :
    (mapError f act).left fs = act.left fs := by
  unfold left mapError
  cases act fs <;> rfl

/-- A change is made as a whole or not at all. -/
theorem left_change (f : FileSystem → Except ε FileSystem) (fs : FileSystem) :
    (change f).left fs = fs ∨ f fs = .ok ((change f).left fs) := by
  unfold left change
  cases hchange : f fs with
  | ok changed => exact .inr rfl
  | error e => exact .inl rfl

/-- What is left behind is that of the first operation, if it fails, and else that of the second. -/
theorem left_bind (act : FileAction ε α) (next : α → FileAction ε β) :
    (act >>= next).left fs = act.left fs ∨
      ∃ a, act fs = .ok a (act.left fs) ∧ (act >>= next).left fs = (next a).left (act.left fs) := by
  change FileAction.left (EStateM.bind act next) fs = _ ∨ ∃ a, _ ∧
    FileAction.left (EStateM.bind act next) fs = _
  unfold left EStateM.bind
  cases hact : act fs with
  | ok a mid => exact .inr ⟨a, rfl, rfl⟩
  | error e mid => exact .inl rfl

/-! ## Failures -/

theorem pure_ne_error (a : α) : (pure a : FileAction ε α) fs ≠ .error e after := by
  intro h
  cases h

theorem bind_eq_error_iff {act : FileAction ε α} {next : α → FileAction ε β} :
    (act >>= next) fs = .error e after ↔
      act fs = .error e after ∨ ∃ a mid, act fs = .ok a mid ∧ next a mid = .error e after := by
  change EStateM.bind act next fs = .error e after ↔ _
  unfold EStateM.bind
  cases act fs with
  | ok a mid =>
      constructor
      · intro h
        exact .inr ⟨a, mid, rfl, h⟩
      · rintro (heq | ⟨a', mid', heq, h⟩)
        · cases heq
        · cases heq
          exact h
  | error e' mid =>
      constructor
      · intro h
        cases h
        exact .inl rfl
      · rintro (heq | ⟨a', mid', heq, -⟩)
        · cases heq
          rfl
        · cases heq

theorem inspect_eq_error_iff {f : FileSystem → Except ε α} :
    inspect f fs = .error e after ↔ f fs = .error e ∧ fs = after := by
  unfold inspect
  cases f fs with
  | ok a => simp
  | error e' => simp

theorem attempt_ne_error {act : FileAction δ α} :
    (attempt act : FileAction ε (Except δ α)) fs ≠ .error e after := by
  unfold attempt
  cases act fs with
  | ok a mid => simp
  | error e' mid => simp

/-- An operation does not fail in a certain way, whatever it is run on. -/
def Never (e : ε) (act : FileAction ε α) : Prop := ∀ fs after, act fs ≠ .error e after

theorem never_pure (a : α) : Never e (pure a : FileAction ε α) := fun _ _ => pure_ne_error a

theorem never_inspect {f : FileSystem → Except ε α} (h : ∀ fs, f fs ≠ .error e) :
    Never e (inspect f) := by
  intro fs after heq
  exact h fs (inspect_eq_error_iff.mp heq).1

theorem never_mapError {f : δ → ε} (h : ∀ e', f e' ≠ e) (act : FileAction δ α) :
    Never e (mapError f act) := by
  intro fs after heq
  unfold mapError at heq
  cases hact : act fs with
  | ok a mid =>
      rw [hact] at heq
      cases heq
  | error e' mid =>
      rw [hact] at heq
      exact h e' (EStateM.Result.error.inj heq).1

theorem never_bind {act : FileAction ε α} {next : α → FileAction ε β} (h : Never e act)
    (hnext : ∀ a, Never e (next a)) : Never e (act >>= next) := by
  intro fs after heq
  cases bind_eq_error_iff.mp heq with
  | inl hact => exact h fs after hact
  | inr hrest =>
      obtain ⟨a, mid, -, hlast⟩ := hrest
      exact hnext a mid after hlast

theorem never_forM {act : α → FileAction ε Unit} (h : ∀ a, Never e (act a)) (as : List α) :
    Never e (as.forM act) := by
  induction as with
  | nil => exact never_pure ()
  | cons a as ih => exact never_bind (h a) fun _ => ih

end Docset.FileAction
