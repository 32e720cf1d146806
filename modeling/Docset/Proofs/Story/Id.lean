import Docset.Proofs.Text.LowerCase
import Docset.Proofs.Text.Runs
import Docset.Story.Id
import Mathlib.Data.List.Infix

/-!
# Story ids

A part of an id is made in one pass that puts off each dash until a character follows it.
What comes out are the longest runs of alphanumeric characters of the lower-cased text,
joined by dashes. Everything else follows from that: making a part of a part changes
nothing, a part has dashes only inside and never two together, and so the two dashes that
join the parts of an id stand in one place of it only.
-/
namespace Docset.Story
open Text (isAlphanumeric lower lowerChar MaximalRuns)

variable {cs run rest out : List Char} {runs : List (List Char)}

/-! ## Runs joined by dashes -/

/-- That a dash is put off makes no difference before the first run, or where no run goes on. -/
theorem dashed_gap (h : ∀ c ∈ cs.head?, isAlphanumeric c = true → out = []) :
    dashed false out cs = dashed true out cs := by
  cases cs with
  | nil => rfl
  | cons c cs =>
      rw [dashed, dashed]
      split
      · rename_i hc
        simp [h c rfl hc]
      · rfl

theorem dashed_append (h : ∀ c ∈ run, isAlphanumeric c = true) :
    dashed false out (run ++ rest) = dashed false (run.reverse ++ out) rest := by
  induction run generalizing out with
  | nil => rfl
  | cons c run ih =>
      obtain ⟨hc, hrun⟩ := List.forall_mem_cons.mp h
      rw [List.cons_append, dashed, if_pos hc, ih hrun]
      simp

theorem dashed_run (hne : run ≠ []) (hrun : ∀ c ∈ run, isAlphanumeric c = true)
    (hrest : ∀ c ∈ rest.head?, isAlphanumeric c = false) :
    dashed true out (run ++ rest) =
      dashed true (run.reverse ++ if out = [] then [] else '-' :: out) rest := by
  cases run with
  | nil => exact absurd rfl hne
  | cons c run =>
      obtain ⟨hc, hrun⟩ := List.forall_mem_cons.mp hrun
      rw [List.cons_append, dashed, if_pos hc, dashed_append hrun, dashed_gap]
      · by_cases hout : out = [] <;> simp [hout]
      · intro d hd halnum
        rw [hrest d hd] at halnum
        cases halnum

theorem dashed_of_runs (h : MaximalRuns isAlphanumeric cs runs) (hout : out ≠ []) :
    dashed true out cs = out.reverse ++ runs.flatMap ('-' :: ·) := by
  induction h generalizing out with
  | nil => simp [dashed]
  | skip hc _ ih => rw [dashed, if_neg (by simp [hc]), ih hout]
  | run hne hrun hrest _ ih =>
      rw [dashed_run hne hrun hrest, if_neg hout, ih (by simp)]
      simp

theorem dashed_eq_intercalate (h : MaximalRuns isAlphanumeric cs runs) :
    dashed false [] cs = ['-'].intercalate runs := by
  rw [dashed_gap fun _ _ _ => rfl]
  induction h with
  | nil => rfl
  | skip hc _ ih => rw [dashed, if_neg (by simp [hc]), ih]
  | run hne hrun hrest hruns _ =>
      rw [dashed_run hne hrun hrest, if_pos rfl, List.append_nil,
        dashed_of_runs hruns (by simpa using hne), List.reverse_reverse, Text.intercalate_cons_eq]

theorem toList_sanitize {s : String} (h : MaximalRuns isAlphanumeric (lower s.toList) runs) :
    (sanitize s).toList = ['-'].intercalate runs := by
  rw [sanitize, String.toList_ofList, dashed_eq_intercalate h]

theorem lower_sanitize (s : String) : lower (sanitize s).toList = (sanitize s).toList := by
  obtain ⟨runs, hruns⟩ := Text.exists_maximalRuns isAlphanumeric (lower s.toList)
  apply Text.lower_eq_self
  intro c hc
  rw [toList_sanitize hruns] at hc
  obtain rfl | ⟨run, hrun, hmem⟩ := Text.mem_intercalate hc
  · exact Text.lowerChar_eq_self (by decide) (by decide +kernel)
  · obtain ⟨d, -, hlowered⟩ := List.mem_flatMap.mp ((hruns.of_mem hrun).2.2 hmem)
    exact Text.lowerChar_of_mem_lowerChar hlowered

/-- A part is made of the longest alphanumeric runs of the lower-cased text, joined by dashes, and
making a part of it once more changes nothing. -/
theorem sanitize_joins_runs (s : String) :
    (∃ runs, (∀ others, MaximalRuns isAlphanumeric (lower s.toList) others ↔ others = runs) ∧
      sanitize s = String.ofList (['-'].intercalate runs)) ∧
    sanitize (sanitize s) = sanitize s := by
  obtain ⟨runs, hruns⟩ := Text.exists_maximalRuns isAlphanumeric (lower s.toList)
  have hunique := hruns.eq_runsOf
  constructor
  · refine ⟨runs, fun others => ?_, ?_⟩
    · rw [Text.maximalRuns_iff, hunique]
    · rw [← toList_sanitize hruns, String.ofList_toList]
  · have hagain : MaximalRuns isAlphanumeric (lower (sanitize s).toList) runs := by
      rw [lower_sanitize, toList_sanitize hruns]
      exact Text.maximalRuns_intercalate (by simp) fun run hrun =>
        ⟨(hruns.of_mem hrun).1, (hruns.of_mem hrun).2.1⟩
    apply String.toList_injective
    rw [toList_sanitize hagain, toList_sanitize hruns]

-- A run may end inside the lower case of one character, here at its combining dot.
example : sanitize "İstanbul" = "i-stanbul" := by decide +kernel

/-! ## The separator of an id -/

/-- Dashes only inside a text, and no two of them together. -/
structure InnerDashes (cs : List Char) : Prop where
  starts_plain : ¬ ['-'] <+: cs
  ends_plain : ¬ ['-'] <:+ cs
  no_double : ¬ ['-', '-'] <:+: cs

namespace InnerDashes

theorem of_not_mem (h : '-' ∉ cs) : InnerDashes cs where
  starts_plain hpre := h (hpre.subset (by simp))
  ends_plain hsuf := h (hsuf.subset (by simp))
  no_double hinf := h (hinf.subset (by simp))

theorem cons {c : Char} (hc : c ≠ '-') (h : InnerDashes cs) : InnerDashes (c :: cs) where
  starts_plain hpre := hc (List.cons_prefix_cons.mp hpre).1.symm
  ends_plain hsuf := by
    rcases List.suffix_cons_iff.mp hsuf with heq | hrest
    · exact hc (List.cons.inj heq).1.symm
    · exact h.ends_plain hrest
  no_double hinf := by
    rcases List.infix_cons_iff.mp hinf with hpre | hrest
    · exact hc (List.cons_prefix_cons.mp hpre).1.symm
    · exact h.no_double hrest

theorem cons_dash {c : Char} (hc : c ≠ '-') (hne : cs ≠ []) (h : InnerDashes cs) :
    InnerDashes (c :: '-' :: cs) where
  starts_plain hpre := hc (List.cons_prefix_cons.mp hpre).1.symm
  ends_plain hsuf := by
    rcases List.suffix_cons_iff.mp hsuf with heq | hrest
    · exact hc (List.cons.inj heq).1.symm
    · rcases List.suffix_cons_iff.mp hrest with heq | hrest
      · exact hne (List.cons.inj heq).2.symm
      · exact h.ends_plain hrest
  no_double hinf := by
    rcases List.infix_cons_iff.mp hinf with hpre | hrest
    · exact hc (List.cons_prefix_cons.mp hpre).1.symm
    · rcases List.infix_cons_iff.mp hrest with hpre | hrest
      · exact h.starts_plain (List.cons_prefix_cons.mp hpre).2
      · exact h.no_double hrest

theorem append_dash (hne : run ≠ []) (hrun : '-' ∉ run) (hcs : cs ≠ []) (h : InnerDashes cs) :
    InnerDashes (run ++ '-' :: cs) := by
  induction run with
  | nil => exact absurd rfl hne
  | cons c run ih =>
      have hc : c ≠ '-' := fun heq => hrun (by simp [heq])
      cases run with
      | nil => exact h.cons_dash hc hcs
      | cons d run => exact (ih (by simp) fun hd => hrun (List.mem_cons_of_mem _ hd)).cons hc

/-- Two dashes between texts with inner dashes are met nowhere else. -/
theorem separator_unique {first second before after : List Char} (hfirst : InnerDashes first)
    (hsecond : InnerDashes second)
    (h : first ++ '-' :: '-' :: second = before ++ '-' :: '-' :: after) :
    before = first ∧ after = second := by
  rcases List.append_eq_append_iff.mp h with ⟨more, hbefore, hrest⟩ | ⟨more, hfirst', hrest⟩
  · match more with
    | [] => simpa using And.intro hbefore hrest.symm
    | [c] =>
        simp only [List.singleton_append, List.cons.injEq] at hrest
        exact absurd ⟨_, hrest.2.2.symm⟩ hsecond.starts_plain
    | c :: d :: more =>
        simp only [List.cons_append, List.cons.injEq] at hrest
        exact absurd ⟨more, after, by simpa using hrest.2.2.symm⟩ hsecond.no_double
  · match more with
    | [] => simpa using And.intro hfirst'.symm hrest
    | [c] =>
        simp only [List.singleton_append, List.cons.injEq] at hrest
        exact absurd ⟨before, by rw [hfirst', hrest.1]⟩ hfirst.ends_plain
    | c :: d :: more =>
        simp only [List.cons_append, List.cons.injEq] at hrest
        exact absurd ⟨before, more, by simp [hfirst', ← hrest.1, ← hrest.2.1]⟩ hfirst.no_double

theorem intercalate (h : ∀ run ∈ runs, run ≠ [] ∧ '-' ∉ run) :
    InnerDashes (['-'].intercalate runs) := by
  induction runs with
  | nil => exact of_not_mem (by simp)
  | cons run runs ih =>
      obtain ⟨⟨hne, hrun⟩, hruns⟩ := List.forall_mem_cons.mp h
      cases runs with
      | nil => simpa using of_not_mem hrun
      | cons next runs =>
          rw [List.intercalate_cons_cons, List.append_assoc, List.singleton_append]
          refine append_dash hne hrun ?_ (ih hruns)
          rw [Text.intercalate_cons_eq]
          simp [(hruns next (by simp)).1]

end InnerDashes

theorem innerDashes_sanitize (s : String) : InnerDashes (sanitize s).toList := by
  obtain ⟨runs, hruns⟩ := Text.exists_maximalRuns isAlphanumeric (lower s.toList)
  rw [toList_sanitize hruns]
  apply InnerDashes.intercalate
  intro run hrun
  obtain ⟨hne, halnum, -⟩ := hruns.of_mem hrun
  refine ⟨hne, fun hdash => ?_⟩
  simpa using halnum '-' hdash

/-- An id can be taken apart at two dashes in one way, into the parts it was made of. -/
theorem storyId_eq_append_iff {group variant before after : String} :
    storyId group variant = before ++ "--" ++ after ↔
      before = sanitize group ∧ after = sanitize variant := by
  constructor
  · intro h
    have hlists := congrArg String.toList h
    simp only [storyId, String.toList_append] at hlists
    have hparts := (innerDashes_sanitize group).separator_unique (innerDashes_sanitize variant)
      (by simpa using hlists)
    exact ⟨String.toList_injective hparts.1, String.toList_injective hparts.2⟩
  · rintro ⟨rfl, rfl⟩
    rfl

/-- Ids agree exactly if both of their parts do, since the dashes that join the parts can be told
from all others. -/
theorem storyId_collides_iff (group variant group' variant' : String) :
    (storyId group variant = storyId group' variant' ↔
      sanitize group = sanitize group' ∧ sanitize variant = sanitize variant') ∧
    ∀ before after, storyId group variant = before ++ "--" ++ after ↔
      before = sanitize group ∧ after = sanitize variant := by
  constructor
  · exact eq_comm.trans storyId_eq_append_iff
  · intro before after
    exact storyId_eq_append_iff

end Docset.Story
