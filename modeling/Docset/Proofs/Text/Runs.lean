import Docset.Proofs.Files.Path

/-!
# Runs of characters

A text is cut into its longest stretches of characters of one class. They are what dividing
the text at every other character leaves, less the empty parts, so a text has exactly one
list of them. Stretches that are joined by a character of the other class are found again in
the joined text.
-/
namespace Docset.Text

variable {p : Char → Bool} {cs : List Char} {runs : List (List Char)}

/-- The longest stretches of characters with `p` in a text, in order. A stretch is followed by the
end of the text or a character without `p`, and preceded by its start or by one that was skipped. -/
inductive MaximalRuns (p : Char → Bool) : List Char → List (List Char) → Prop
  | nil : MaximalRuns p [] []
  | skip {c : Char} {cs : List Char} {runs : List (List Char)} :
      p c = false → MaximalRuns p cs runs → MaximalRuns p (c :: cs) runs
  | run {run rest : List Char} {runs : List (List Char)} :
      run ≠ [] → (∀ c ∈ run, p c = true) → (∀ c ∈ rest.head?, p c = false) →
      MaximalRuns p rest runs → MaximalRuns p (run ++ rest) (run :: runs)

/-- The parts of a text between characters without `p`, less the empty ones. -/
def runsOf (p : Char → Bool) (cs : List Char) : List (List Char) :=
  (split (fun c => !p c) cs).filter (!·.isEmpty)

theorem runsOf_skip {c : Char} (hc : p c = false) (cs : List Char) :
    runsOf p (c :: cs) = runsOf p cs := by
  have hsplit : split (fun c => !p c) (c :: cs) = [[]] ++ split (fun c => !p c) cs :=
    split_append (by simpa using hc) [] cs
  rw [runsOf, hsplit, List.filter_append]
  rfl

theorem runsOf_run {run rest : List Char} (hne : run ≠ []) (hrun : ∀ c ∈ run, p c = true)
    (hrest : ∀ c ∈ rest.head?, p c = false) : runsOf p (run ++ rest) = run :: runsOf p rest := by
  have hwhole : split (fun c => !p c) run = [run] :=
    split_of_none fun c hc => by simp [hrun c hc]
  have hkept : [run].filter (!·.isEmpty) = [run] := by simpa using hne
  cases rest with
  | nil => rw [List.append_nil, runsOf, hwhole, hkept]; rfl
  | cons c rest =>
      have hc : p c = false := hrest c rfl
      have hsplit : split (fun c => !p c) (run ++ c :: rest) =
          [run] ++ split (fun c => !p c) rest :=
        hwhole ▸ split_append (by simpa using hc) run rest
      rw [runsOf_skip hc, runsOf, hsplit, List.filter_append, hkept]
      rfl

namespace MaximalRuns

theorem eq_runsOf (h : MaximalRuns p cs runs) : runs = runsOf p cs := by
  induction h with
  | nil => rfl
  | skip hc _ ih => rw [runsOf_skip hc, ih]
  | run hne hrun hrest _ ih => rw [runsOf_run hne hrun hrest, ih]

/-- A character with `p` in front of a text is a run of its own, or makes the first run longer. -/
theorem cons {c : Char} (hc : p c = true) (h : MaximalRuns p cs runs) :
    ∃ longer, MaximalRuns p (c :: cs) longer := by
  have hown (hcs : ∀ d ∈ cs.head?, p d = false) : MaximalRuns p ([c] ++ cs) ([c] :: runs) :=
    .run (by simp) (by simpa) hcs h
  cases h with
  | nil => exact ⟨_, hown (by simp)⟩
  | skip hd _ => exact ⟨_, hown (by simpa)⟩
  | @run run rest later _ hrun hrest hlater =>
      have hlonger : MaximalRuns p ((c :: run) ++ rest) ((c :: run) :: later) :=
        .run (by simp) (by simpa [hc] using hrun) hrest hlater
      exact ⟨_, hlonger⟩

end MaximalRuns

theorem exists_maximalRuns (p : Char → Bool) (cs : List Char) : ∃ runs, MaximalRuns p cs runs := by
  induction cs with
  | nil => exact ⟨[], .nil⟩
  | cons c cs ih =>
      obtain ⟨runs, hruns⟩ := ih
      cases hc : p c with
      | false => exact ⟨runs, .skip hc hruns⟩
      | true => exact hruns.cons hc

/-- A text has one list of longest runs. -/
theorem maximalRuns_iff : MaximalRuns p cs runs ↔ runs = runsOf p cs := by
  constructor
  · exact MaximalRuns.eq_runsOf
  · rintro rfl
    obtain ⟨runs, hruns⟩ := exists_maximalRuns p cs
    exact hruns.eq_runsOf ▸ hruns

theorem MaximalRuns.of_mem {run : List Char} (h : MaximalRuns p cs runs) (hrun : run ∈ runs) :
    run ≠ [] ∧ (∀ c ∈ run, p c = true) ∧ run ⊆ cs := by
  induction h with
  | nil => cases hrun
  | skip _ _ ih =>
      obtain ⟨hne, hall, hsub⟩ := ih hrun
      exact ⟨hne, hall, List.subset_cons_of_subset _ hsub⟩
  | run hne hall _ _ ih =>
      rcases List.mem_cons.mp hrun with rfl | hlater
      · exact ⟨hne, hall, List.subset_append_left _ _⟩
      · obtain ⟨hne, hall, hsub⟩ := ih hlater
        exact ⟨hne, hall, List.subset_append_of_subset_right _ hsub⟩

theorem maximalRuns_intercalate {s : Char} (hs : p s = false)
    (hruns : ∀ run ∈ runs, run ≠ [] ∧ ∀ c ∈ run, p c = true) :
    MaximalRuns p ([s].intercalate runs) runs := by
  induction runs with
  | nil => exact .nil
  | cons run runs ih =>
      obtain ⟨⟨hne, hall⟩, hlater⟩ := List.forall_mem_cons.mp hruns
      cases runs with
      | nil =>
          have hlast : MaximalRuns p (run ++ []) [run] := .run hne hall (by simp) .nil
          simpa using hlast
      | cons next runs =>
          rw [List.intercalate_cons_cons, List.append_assoc]
          exact .run hne hall (by simpa using hs) (.skip hs (ih hlater))

/-- The first part of a joined text stands as it is, and every further one after a separator. -/
theorem intercalate_cons_eq (s : Char) (part : List Char) (parts : List (List Char)) :
    [s].intercalate (part :: parts) = part ++ parts.flatMap (s :: ·) := by
  induction parts generalizing part with
  | nil => simp
  | cons next parts ih =>
      rw [List.intercalate_cons_cons, ih, List.flatMap_cons, List.append_assoc,
        List.singleton_append, List.cons_append]

theorem mem_intercalate {s c : Char} {parts : List (List Char)} (h : c ∈ [s].intercalate parts) :
    c = s ∨ ∃ part ∈ parts, c ∈ part := by
  cases parts with
  | nil => cases h
  | cons part parts =>
      rw [intercalate_cons_eq] at h
      rcases List.mem_append.mp h with hfirst | hlater
      · exact .inr ⟨part, by simp, hfirst⟩
      · obtain ⟨next, hnext, hc⟩ := List.mem_flatMap.mp hlater
        exact (List.mem_cons.mp hc).imp_right fun hc => ⟨next, by simp [hnext], hc⟩

end Docset.Text
