import Docset.Text.LowerCase

/-!
# Lower case is settled

Lower-casing a character that came out of lower-casing leaves it as it is. Nothing is
assumed of Unicode for that: what a run of code points leads to is again a stretch of code
points, and every such stretch is looked up in all the runs.
-/
namespace Docset.Text

/-- The runs leave every `stride`-th code point from `low` to `high` as it is: each of them lies
apart from the stretch or skips what is in it. -/
def leaveAlone (low high stride : Nat) : List CaseRun → Bool
  | [] => true
  | r :: runs =>
      if high < r.first then true
      else if r.last < low then leaveAlone low high stride runs
      else
        stride % r.stride == 0 && r.first ≤ low && (low - r.first) % r.stride != 0 &&
          leaveAlone low high stride runs

theorem lowerIn_of_leaveAlone {low high stride n : Nat} {runs : List CaseRun}
    (h : leaveAlone low high stride runs) (hlow : low ≤ n) (hhigh : n ≤ high)
    (hstride : stride ∣ n - low) : lowerIn n runs = n := by
  fun_induction leaveAlone low high stride runs with
  | case1 => rfl
  | case2 r runs hbefore => rw [lowerIn, if_pos (by omega)]
  | case3 r runs hbefore hbehind ih =>
      rw [lowerIn, if_neg (c := n ≤ r.last ∧ _) (by omega), ih h, ite_self]
  | case4 r runs hbefore hbehind ih =>
      simp only [Bool.and_eq_true, beq_iff_eq, decide_eq_true_eq, bne_iff_ne] at h
      obtain ⟨⟨⟨hsteps, hfirst⟩, hskips⟩, hruns⟩ := h
      -- From a skipped code point the stretch goes on by multiples of the run's stride.
      have hskips' : (n - r.first) % r.stride ≠ 0 := by
        intro hzero
        have hreach : r.stride ∣ n - low := 
          Nat.dvd_trans (Nat.dvd_of_mod_eq_zero hsteps) hstride
        have hsplit : n - r.first = (n - low) + (low - r.first) := by omega
        have hhit := Nat.dvd_of_mod_eq_zero hzero
        rw [hsplit] at hhit
        exact hskips (Nat.mod_eq_zero_of_dvd ((Nat.dvd_add_right hreach).mp hhit))
      rw [lowerIn, if_neg (c := n ≤ r.last ∧ _) (fun hin => hskips' hin.2), ih hruns, ite_self]

namespace CaseRun

def low (r : CaseRun) : Nat := (r.first + r.shift).toNat

def high (r : CaseRun) : Nat := (r.last + r.shift).toNat

/-- What a run leads to are characters on one side of the surrogates, all of them their own lower
case. A run of a single code point leads to one as well, and has no stride there. -/
def Settled (r : CaseRun) : Prop :=
  0 ≤ r.first + r.shift ∧ (r.high < 0xD800 ∨ 0xDFFF < r.low ∧ r.high < 0x110000) ∧
    (r.high < 'İ'.toNat ∨ 'İ'.toNat < r.low) ∧
    leaveAlone r.low r.high (if r.first = r.last then 0 else r.stride) caseRuns

instance (r : CaseRun) : Decidable r.Settled :=
  inferInstanceAs (Decidable (_ ∧ (_ ∨ _ ∧ _) ∧ (_ ∨ _) ∧ _))

end CaseRun

theorem settled_caseRuns : ∀ r ∈ caseRuns, r.Settled := by decide +kernel

theorem lowerIn_cases (n : Nat) (runs : List CaseRun) :
    lowerIn n runs = n ∨
      ∃ r ∈ runs, r.first ≤ n ∧ n ≤ r.last ∧ r.stride ∣ n - r.first ∧
        lowerIn n runs = (n + r.shift).toNat := by
  induction runs with
  | nil => exact .inl rfl
  | cons r runs ih =>
      rw [lowerIn]
      split
      · exact .inl rfl
      · rename_i hfirst
        split
        · rename_i hin
          exact .inr ⟨r, by simp, by omega, hin.1, Nat.dvd_of_mod_eq_zero hin.2, rfl⟩
        · obtain hself | ⟨found, hfound, hheld⟩ := ih
          · exact .inl hself
          · exact .inr ⟨found, List.mem_cons_of_mem _ hfound, hheld⟩

theorem lowerChar_eq_self {c : Char} (hne : c ≠ 'İ')
    (hself : lowerIn c.toNat caseRuns = c.toNat) : lowerChar c = [c] := by
  rw [lowerChar, if_neg hne, hself, Char.ofNat_toNat]

/-- What a run leads to is its own lower case. -/
theorem CaseRun.Settled.lowerChar_eq {r : CaseRun} (h : r.Settled) {n : Nat} (hfirst : r.first ≤ n)
    (hlast : n ≤ r.last) (hstride : r.stride ∣ n - r.first) :
    lowerChar (Char.ofNat (n + r.shift).toNat) = [Char.ofNat (n + r.shift).toNat] := by
  obtain ⟨hnonneg, hside, hdotted, halone⟩ := h
  have hlow : r.low ≤ (n + r.shift).toNat := by rw [low]; omega
  have hhigh : (n + r.shift).toNat ≤ r.high := by rw [high]; omega
  have hoffset : (n + r.shift).toNat - r.low = n - r.first := by rw [low]; omega
  have hsteps : (if r.first = r.last then 0 else r.stride) ∣ (n + r.shift).toNat - r.low := by
    rw [hoffset]
    split
    · have hzero : n - r.first = 0 := by omega
      exact hzero ▸ Nat.dvd_refl 0
    · exact hstride
  have hself := lowerIn_of_leaveAlone halone hlow hhigh hsteps
  have hvalid : (n + r.shift).toNat.isValidChar := by
    unfold Nat.isValidChar
    omega
  have hnat : (Char.ofNat (n + r.shift).toNat).toNat = (n + r.shift).toNat := by
    rw [Char.ofNat, dif_pos hvalid]
    rfl
  apply lowerChar_eq_self
  · intro heq
    rw [heq] at hnat
    omega
  · rw [hnat, hself]

theorem lowerChar_of_mem_lowerChar {c d : Char} (h : d ∈ lowerChar c) : lowerChar d = [d] := by
  by_cases hc : c = 'İ'
  · have hpair : lowerChar c = ['i', '\u0307'] := if_pos hc
    simp only [hpair, List.mem_cons, List.not_mem_nil, or_false] at h
    rcases h with rfl | rfl
    · exact lowerChar_eq_self (by decide) (by decide +kernel)
    · exact lowerChar_eq_self (by decide) (by decide +kernel)
  · have hlower : lowerChar c = [Char.ofNat (lowerIn c.toNat caseRuns)] := if_neg hc
    rw [hlower, List.mem_singleton] at h
    subst h
    obtain hself | ⟨r, hr, hfirst, hlast, hstride, hshift⟩ := lowerIn_cases c.toNat caseRuns
    · rw [hself, Char.ofNat_toNat]
      exact lowerChar_eq_self hc hself
    · rw [hshift]
      exact (settled_caseRuns r hr).lowerChar_eq hfirst hlast hstride

theorem lower_eq_self {cs : List Char} (h : ∀ c ∈ cs, lowerChar c = [c]) : lower cs = cs := by
  induction cs with
  | nil => rfl
  | cons c cs ih =>
      obtain ⟨hc, hcs⟩ := List.forall_mem_cons.mp h
      have hrest : cs.flatMap lowerChar = cs := ih hcs
      rw [lower, List.flatMap_cons, hc, hrest, List.singleton_append]

end Docset.Text
