import Docset.Files.Path
import Mathlib.Data.List.Sort

/-!
# The order of paths

Paths sort by their components, and two paths that are written differently may have the
same ones. The order is total and transitive all the same, and sorting by it is stable, so
that leaving paths out before sorting or after it makes no difference. What is part of a
list is part of it when both are sorted.
-/
namespace Docset.Path

namespace Component

/-- The text of a name; nothing for the other kinds of components. -/
def label : Component → String
  | name s => s
  | _ => ""

/-- Components sort by their rank, and those of one rank by their text. -/
theorem before_iff {a b : Component} :
    a.before b ↔ a.rank < b.rank ∨ a.rank = b.rank ∧ a.label < b.label := by
  cases a with
  | name s =>
      cases b with
      | name t => simp [before, rank, label]
      | root => simp [before, rank]
      | current => simp [before, rank]
      | parent => simp [before, rank]
  | root => cases b <;> simp [before, rank, label]
  | current => cases b <;> simp [before, rank, label]
  | parent => cases b <;> simp [before, rank, label]

theorem ext_rank_label {a b : Component} (hrank : a.rank = b.rank) (hlabel : a.label = b.label) :
    a = b := by
  cases a <;> cases b <;> simp_all [rank, label]

theorem before_trans {a b c : Component} (h : a.before b) (h' : b.before c) : a.before c := by
  rw [before_iff] at h h' ⊢
  rcases h with h | ⟨h, hlabel⟩
  · left
    omega
  · rcases h' with h' | ⟨h', hlabel'⟩
    · left
      omega
    · exact .inr ⟨h.trans h', String.lt_trans hlabel hlabel'⟩

theorem before_trichotomy (a b : Component) : a.before b ∨ a = b ∨ b.before a := by
  rw [before_iff, before_iff]
  rcases Nat.lt_trichotomy a.rank b.rank with h | h | h
  · exact .inl (.inl h)
  · rcases Std.lt_trichotomy a.label b.label with hl | hl | hl
    · exact .inl (.inr ⟨h, hl⟩)
    · exact .inr (.inl (ext_rank_label h hl))
    · exact .inr (.inr (.inr ⟨h.symm, hl⟩))
  · exact .inr (.inr (.inl h))

end Component

theorem componentsLe_cons {a b : Component} {as bs : List Component} :
    componentsLe (a :: as) (b :: bs) ↔ a.before b ∨ a = b ∧ componentsLe as bs := by
  simp [componentsLe]

theorem componentsLe_total (as bs : List Component) : componentsLe as bs ∨ componentsLe bs as := by
  induction as generalizing bs with
  | nil => exact .inl rfl
  | cons a as ih =>
      cases bs with
      | nil => exact .inr rfl
      | cons b bs =>
          rw [componentsLe_cons, componentsLe_cons]
          rcases a.before_trichotomy b with h | rfl | h
          · exact .inl (.inl h)
          · exact (ih bs).imp (fun h => .inr ⟨rfl, h⟩) fun h => .inr ⟨rfl, h⟩
          · exact .inr (.inl h)

theorem componentsLe_trans {as bs cs : List Component} (h : componentsLe as bs)
    (h' : componentsLe bs cs) : componentsLe as cs := by
  induction as generalizing bs cs with
  | nil => rfl
  | cons a as ih =>
      cases bs with
      | nil => cases h
      | cons b bs =>
          cases cs with
          | nil => cases h'
          | cons c cs =>
              rw [componentsLe_cons] at h h' ⊢
              rcases h with h | ⟨rfl, h⟩
              · rcases h' with h' | ⟨rfl, -⟩
                · exact .inl (Component.before_trans h h')
                · exact .inl h
              · exact h'.imp_right fun h' => ⟨h'.1, ih h h'.2⟩

theorem le_total (p q : Path) : (p.le q || q.le p) = true := by
  rw [Bool.or_eq_true]
  exact componentsLe_total p.components q.components

theorem le_trans (p q r : Path) (h : p.le q) (h' : q.le r) : p.le r := componentsLe_trans h h'

/-- A list is divided in one way only into paths that a path does not come before, and paths that
it does. -/
theorem append_unique_of_le {p : Path} {as bs cs ds : List Path} (h : as ++ bs = cs ++ ds)
    (has : ∀ q ∈ as, (!p.le q) = true) (hbs : ∀ q ∈ bs, p.le q)
    (hcs : ∀ q ∈ cs, (!p.le q) = true) (hds : ∀ q ∈ ds, p.le q) : as = cs ∧ bs = ds := by
  have htake : ∀ {l r : List Path}, (∀ q ∈ l, (!p.le q) = true) → (∀ q ∈ r, p.le q) →
      (l ++ r).takeWhile (fun q => !p.le q) = l := by
    intro l r hl hr
    rw [List.takeWhile_append_of_pos hl]
    cases r with
    | nil => simp
    | cons q r => simp [hr q (by simp)]
  have hfirst : as = cs := by rw [← htake has hbs, h, htake hcs hds]
  subst hfirst
  exact ⟨rfl, List.append_cancel_left h⟩

theorem mergeSort_cons_eq (p : Path) (paths : List Path) :
    ∃ before after, (p :: paths).mergeSort le = before ++ p :: after ∧
      paths.mergeSort le = before ++ after ∧
      (∀ q ∈ before, (!p.le q) = true) ∧ ∀ q ∈ after, p.le q := by
  obtain ⟨before, after, hsorted, hrest, hbefore⟩ :=
    List.mergeSort_cons le_trans le_total p paths
  have hpairs := List.pairwise_mergeSort le_trans le_total (p :: paths)
  rw [hsorted, List.pairwise_append, List.pairwise_cons] at hpairs
  exact ⟨before, after, hsorted, hrest, hbefore, hpairs.2.1.1⟩

theorem filter_mergeSort (counts : Path → Bool) (paths : List Path) :
    (paths.mergeSort le).filter counts = (paths.filter counts).mergeSort le := by
  induction paths with
  | nil => simp
  | cons p paths ih =>
      obtain ⟨before, after, hsorted, hrest, hbefore, hafter⟩ := mergeSort_cons_eq p paths
      rw [hrest, List.filter_append] at ih
      rw [hsorted, List.filter_append, List.filter_cons, List.filter_cons]
      split
      · -- The path goes to the same place among those that are left.
        obtain ⟨before', after', hsorted', hrest', hbefore', hafter'⟩ :=
          mergeSort_cons_eq p (paths.filter counts)
        rw [hrest'] at ih
        obtain ⟨hb, ha⟩ := append_unique_of_le ih
          (fun q hq => hbefore q (List.mem_of_mem_filter hq))
          (fun q hq => hafter q (List.mem_of_mem_filter hq)) hbefore' hafter'
        rw [hsorted', hb, ha]
      · exact ih

theorem filter_of_le {p : Path} {before after : List Path}
    (hbefore : ∀ q ∈ before, (!p.le q) = true) (hafter : ∀ q ∈ after, p.le q) :
    (before ++ after).filter (fun q => !p.le q) = before ∧
      (before ++ after).filter (fun q => p.le q) = after := by
  have hnone : before.filter (fun q => p.le q) = [] :=
    List.filter_eq_nil_iff.mpr fun q hq => by simpa using hbefore q hq
  have hnone' : after.filter (fun q => !p.le q) = [] :=
    List.filter_eq_nil_iff.mpr fun q hq => by simp [hafter q hq]
  constructor
  · rw [List.filter_append, List.filter_eq_self.mpr hbefore, hnone', List.append_nil]
  · rw [List.filter_append, List.filter_eq_self.mpr hafter, hnone, List.nil_append]

theorem sublist_mergeSort {fewer more : List Path} (h : fewer.Sublist more) :
    (fewer.mergeSort le).Sublist (more.mergeSort le) := by
  induction h with
  | slnil => exact List.Sublist.refl _
  | @cons fewer more p h ih =>
      obtain ⟨before, after, hsorted, hrest, -⟩ := mergeSort_cons_eq p more
      rw [hrest] at ih
      rw [hsorted]
      exact ih.trans ((List.Sublist.refl before).append (List.sublist_cons_self p after))
  | @cons_cons fewer more p h ih =>
      obtain ⟨before, after, hsorted, hrest, hbefore, hafter⟩ := mergeSort_cons_eq p fewer
      obtain ⟨before', after', hsorted', hrest', hbefore', hafter'⟩ := mergeSort_cons_eq p more
      rw [hrest, hrest'] at ih
      have hfirst := ih.filter fun q => !p.le q
      have hlast := ih.filter fun q => p.le q
      rw [(filter_of_le hbefore hafter).1, (filter_of_le hbefore' hafter').1] at hfirst
      rw [(filter_of_le hbefore hafter).2, (filter_of_le hbefore' hafter').2] at hlast
      rw [hsorted, hsorted']
      exact hfirst.append (hlast.cons_cons p)

end Docset.Path
