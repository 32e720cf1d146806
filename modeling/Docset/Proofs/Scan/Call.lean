import Docset.Proofs.Text.Slice
import Docset.Scan.Call

/-!
# Where calls stand in a text

The spelling of a call is fixed by its pattern: the lead as written, white space, and
an opening parenthesis. A call occurs in a text where such a spelling is a slice of it.
The search for a call is shown to be exact: it finds the occurrence that starts first
among those that end inside the window, and nothing only if there is none.
-/
namespace Docset.Scan
open Text (Cursor Slice byteLength)

namespace CallPattern

/-- `s` is the text of a call, from its first character to its parenthesis. -/
def Spells (p : CallPattern) (s : List Char) : Prop :=
  ∃ blank, (∀ c ∈ blank, Text.isWhiteSpace c = true) ∧ s = p.lead ++ (blank ++ ['('])

/-- A call of the text `cs` starts at byte `i`, and its arguments at byte `a`. -/
def Occurs (p : CallPattern) (cs : List Char) (i a : Nat) : Prop :=
  ∃ s, p.Spells s ∧ Slice cs i a s

theorem args?_eq_some_iff {p : CallPattern} {offset : Nat} {rest : List Char} {d : Cursor} :
    p.args? offset rest = some d ↔ ∃ s, p.Spells s ∧ Cursor.Reads ⟨offset, rest⟩ s d := by
  constructor
  · intro h
    rw [args?] at h
    split at h
    · cases h
    · rename_i c hlead
      rw [Cursor.past?_eq_some_iff] at hlead
      obtain ⟨blank, hblank, hread, -⟩ :=
        @Cursor.skip_reads Text.isWhiteSpace c.offset c.rest
      split at h
      · rename_i stop tail heq
        cases h
        rw [heq] at hread
        have hopen : Cursor.Reads ⟨stop, '(' :: tail⟩ ['('] ⟨stop + 1, tail⟩ := ⟨rfl, rfl⟩
        exact ⟨_, ⟨blank, hblank, rfl⟩, hlead.append (hread.append hopen)⟩
      · cases h
  · rintro ⟨s, ⟨blank, hblank, rfl⟩, hrest, hoffset⟩
    rw [List.append_assoc] at hrest
    have hlead : Cursor.past? p.lead offset rest =
        some ⟨offset + byteLength p.lead, (blank ++ ['(']) ++ d.rest⟩ :=
      Cursor.past?_eq_some_iff.mpr ⟨hrest, rfl⟩
    have hskip : Cursor.skip Text.isWhiteSpace (offset + byteLength p.lead)
        ((blank ++ ['(']) ++ d.rest) =
        ⟨offset + byteLength p.lead + byteLength blank, '(' :: d.rest⟩ := by
      rw [List.append_assoc, Cursor.skip_append hblank, List.singleton_append, Cursor.skip,
        if_neg (by decide)]
    have hparen : byteLength ['('] = 1 := rfl
    rw [args?, hlead]
    simp only [hskip]
    cases d
    simp only [Text.byteLength_append, hparen] at hoffset
    simp only [Option.some.injEq, Cursor.mk.injEq, and_true]
    omega

theorem Spells.byteLength_pos {p : CallPattern} {s : List Char} (h : p.Spells s) :
    0 < byteLength s := by
  obtain ⟨blank, -, rfl⟩ := h
  have hparen : byteLength ['('] = 1 := rfl
  simp only [Text.byteLength_append, hparen]
  omega

theorem Occurs.lt {p : CallPattern} {cs : List Char} {i a : Nat} (h : p.Occurs cs i a) :
    i < a := by
  obtain ⟨s, hs, -, -, -, -, rfl⟩ := h
  have := hs.byteLength_pos
  omega

theorem Occurs.exists_in {p : CallPattern} {cs : List Char} {i a : Nat} (h : p.Occurs cs i a) :
    ∃ c d : Cursor, c.In cs ∧ c.offset = i ∧ p.args? c.offset c.rest = some d ∧ d.offset = a := by
  obtain ⟨s, hs, hslice⟩ := h
  obtain ⟨c, d, hc, hi, hread, ha⟩ := hslice.exists_reads
  exact ⟨c, d, hc, hi, args?_eq_some_iff.mpr ⟨s, hs, hread⟩, ha⟩

theorem Occurs.le_byteLength {p : CallPattern} {cs : List Char} {i a : Nat}
    (h : p.Occurs cs i a) : a ≤ byteLength cs := by
  obtain ⟨c, d, hc, -, hargs, rfl⟩ := h.exists_in
  obtain ⟨s, -, hread⟩ := args?_eq_some_iff.mp hargs
  exact (hc.reads hread).offset_le

theorem occurs_iff {p : CallPattern} {cs : List Char} {c : Cursor} (hc : c.In cs) {a : Nat} :
    p.Occurs cs c.offset a ↔ ∃ d, p.args? c.offset c.rest = some d ∧ d.offset = a := by
  constructor
  · intro h
    obtain ⟨b, d, hb, hoff, hargs, ha⟩ := h.exists_in
    have hsame : b = c := hb.ext hc hoff
    subst hsame
    exact ⟨d, hargs, ha⟩
  · rintro ⟨d, hargs, rfl⟩
    obtain ⟨s, hs, hread⟩ := args?_eq_some_iff.mp hargs
    exact ⟨s, hs, hc.slice hread⟩

theorem Occurs.args_unique {p : CallPattern} {cs : List Char} {i a b : Nat}
    (h : p.Occurs cs i a) (h' : p.Occurs cs i b) : a = b := by
  obtain ⟨c, d, hc, rfl, hargs, rfl⟩ := h.exists_in
  obtain ⟨e, hargs', rfl⟩ := (occurs_iff hc).mp h'
  rw [hargs] at hargs'
  cases hargs'
  rfl

/-- No call that ends by `stop` starts from byte `i` up to byte `j`. -/
def NoneIn (p : CallPattern) (cs : List Char) (stop i j : Nat) : Prop :=
  ∀ k a, i ≤ k → k < j → p.Occurs cs k a → stop < a

theorem NoneIn.refl (p : CallPattern) (cs : List Char) (stop i : Nat) : p.NoneIn cs stop i i := by
  intro k a hik hki
  omega

/-- One character further: no place lies inside it, so only a call right here is to be ruled out. -/
theorem NoneIn.step {p : CallPattern} {cs rest : List Char} {stop j : Nat} {c : Cursor} {x : Char}
    (hc : c.In cs) (hx : c.rest = x :: rest)
    (hhere : ∀ d, p.args? c.offset c.rest = some d → stop < d.offset)
    (h : p.NoneIn cs stop (c.offset + x.utf8Size) j) : p.NoneIn cs stop c.offset j := by
  intro k a hk hkj hoccurs
  rcases Nat.eq_or_lt_of_le hk with rfl | hlt
  · obtain ⟨d, hargs, rfl⟩ := (occurs_iff hc).mp hoccurs
    exact hhere d hargs
  · obtain ⟨b, -, hb, rfl, -, -⟩ := hoccurs.exists_in
    exact h b.offset a (hc.next_le hb hx hlt) hkj hoccurs

/-- `j` is the least start, from byte `i` on, of a call that ends by `stop`; its arguments start
at byte `a`. -/
def First (p : CallPattern) (cs : List Char) (stop i j a : Nat) : Prop :=
  i ≤ j ∧ p.Occurs cs j a ∧ a ≤ stop ∧ p.NoneIn cs stop i j

theorem First.unique {p : CallPattern} {cs : List Char} {stop i j k a b : Nat}
    (h : p.First cs stop i j a) (h' : p.First cs stop i k b) : j = k := by
  obtain ⟨hij, hoccurs, hstop, hnone⟩ := h
  obtain ⟨hik, hoccurs', hstop', hnone'⟩ := h'
  rcases Nat.lt_trichotomy j k with hlt | heq | hlt
  · have := hnone' j a hij hlt hoccurs
    omega
  · exact heq
  · have := hnone k b hik hlt hoccurs'
    omega

theorem first_of_find? {p : CallPattern} {cs : List Char} {stop : Nat} {c : Cursor} {m : CallMatch}
    (hc : c.In cs) (h : p.find? stop c.offset c.rest = some m) :
    m.args.In cs ∧ p.First cs stop c.offset m.start m.args.offset := by
  obtain ⟨offset, rest⟩ := c
  induction rest generalizing offset with
  | nil => cases h
  | cons x rest ih =>
      rw [find?] at h
      have hnext := hc.reads (Cursor.reads_cons offset x rest)
      split at h
      · cases h
      · split at h
        · rename_i args hargs
          split at h
          · rename_i hstop
            cases h
            obtain ⟨s, -, hread⟩ := args?_eq_some_iff.mp hargs
            exact ⟨hc.reads hread, Nat.le_refl _, (occurs_iff hc).mpr ⟨args, hargs, rfl⟩, hstop,
              NoneIn.refl p cs stop offset⟩
          · rename_i hstop
            obtain ⟨hin, hle, hoccurs, hends, hnone⟩ := ih _ hnext h
            refine ⟨hin, Nat.le_trans (Nat.le_add_right _ _) hle, hoccurs, hends, ?_⟩
            apply NoneIn.step hc rfl _ hnone
            intro d hd
            rw [hargs] at hd
            cases hd
            omega
        · rename_i hargs
          obtain ⟨hin, hle, hoccurs, hends, hnone⟩ := ih _ hnext h
          refine ⟨hin, Nat.le_trans (Nat.le_add_right _ _) hle, hoccurs, hends, ?_⟩
          apply NoneIn.step hc rfl _ hnone
          intro d hd
          rw [hargs] at hd
          cases hd

theorem noneIn_of_find? {p : CallPattern} {cs : List Char} {stop : Nat} {c : Cursor}
    (hc : c.In cs) (h : p.find? stop c.offset c.rest = none) (j : Nat) :
    p.NoneIn cs stop c.offset j := by
  obtain ⟨offset, rest⟩ := c
  induction rest generalizing offset with
  | nil =>
      intro k a hk hkj hoccurs
      have hend := hc.offset_add
      have hle := hoccurs.le_byteLength
      have hlt := hoccurs.lt
      simp only [Text.byteLength_nil] at hk hend
      omega
  | cons x rest ih =>
      rw [find?] at h
      have hnext := hc.reads (Cursor.reads_cons offset x rest)
      split at h
      · rename_i hstop
        intro k a hk hkj hoccurs
        have hlt := hoccurs.lt
        change offset ≤ k at hk
        change stop ≤ offset at hstop
        omega
      · split at h
        · rename_i args hargs
          split at h
          · cases h
          · apply NoneIn.step hc rfl _ (ih _ hnext h)
            intro d hd
            rw [hargs] at hd
            cases hd
            omega
        · rename_i hargs
          apply NoneIn.step hc rfl _ (ih _ hnext h)
          intro d hd
          rw [hargs] at hd
          cases hd

/-- The search finds the call that starts first, and every such call is found. -/
theorem find?_eq_some_iff {p : CallPattern} {cs : List Char} {stop : Nat} {c : Cursor}
    {m : CallMatch} (hc : c.In cs) :
    p.find? stop c.offset c.rest = some m ↔
      m.args.In cs ∧ p.First cs stop c.offset m.start m.args.offset := by
  constructor
  · exact first_of_find? hc
  · rintro ⟨hin, hfirst⟩
    cases hfind : p.find? stop c.offset c.rest with
    | none =>
        have := noneIn_of_find? hc hfind (m.start + 1) m.start m.args.offset hfirst.1
          (Nat.lt_succ_self _) hfirst.2.1
        have := hfirst.2.2.1
        omega
    | some found =>
        obtain ⟨hin', hfirst'⟩ := first_of_find? hc hfind
        have hstart := hfirst'.unique hfirst
        have hoccurs := hfirst'.2.1
        rw [hstart] at hoccurs
        have hcursor : found.args = m.args :=
          hin'.ext hin (hoccurs.args_unique hfirst.2.1)
        cases found
        cases m
        simp_all

theorem find?_eq_none_iff {p : CallPattern} {cs : List Char} {stop : Nat} {c : Cursor}
    (hc : c.In cs) :
    p.find? stop c.offset c.rest = none ↔ ∀ j, p.NoneIn cs stop c.offset j := by
  constructor
  · exact noneIn_of_find? hc
  · intro h
    cases hfind : p.find? stop c.offset c.rest with
    | none => rfl
    | some m =>
        obtain ⟨-, hle, hoccurs, hends, -⟩ := first_of_find? hc hfind
        have := h (m.start + 1) m.start m.args.offset hle (Nat.lt_succ_self _) hoccurs
        omega

theorem find?_of_first {p : CallPattern} {cs : List Char} {stop j a : Nat} {c : Cursor}
    (hc : c.In cs) (h : p.First cs stop c.offset j a) :
    ∃ d : Cursor, d.In cs ∧ d.offset = a ∧ p.find? stop c.offset c.rest = some ⟨j, d⟩ := by
  obtain ⟨b, d, hb, -, hargs, rfl⟩ := h.2.1.exists_in
  obtain ⟨s, -, hread⟩ := args?_eq_some_iff.mp hargs
  exact ⟨d, hb.reads hread, rfl, (find?_eq_some_iff hc).mpr ⟨hb.reads hread, h⟩⟩

theorem find?_eq_none_of_not_occurs {p : CallPattern} {cs : List Char} {stop : Nat} {c : Cursor}
    (hc : c.In cs) (h : ∀ j a, c.offset ≤ j → ¬ p.Occurs cs j a) :
    p.find? stop c.offset c.rest = none := by
  rw [find?_eq_none_iff hc]
  intro j k a hk _ hoccurs
  exact absurd hoccurs (h k a hk)

end CallPattern

end Docset.Scan
