import Docset.Text.Cursor

/-!
# Parts of a text between byte offsets

A slice is a run of characters together with the two byte offsets it stands between.
Slices are what statements about a text are made of; cursors are what the functions
that read it pass around. The two are tied by one fact: a text has at most one place
at each offset, so a slice that starts at the offset of a cursor is what that cursor
reads next.
-/
namespace Docset.Text

theorem byteLength_toList (text : String) : byteLength text.toList = text.utf8ByteSize := by
  have h : ∀ cs : List Char, (String.ofList cs).utf8ByteSize = byteLength cs := by
    intro cs
    induction cs with
    | nil => rfl
    | cons c cs ih =>
        have hcons : String.ofList (c :: cs) = String.singleton c ++ String.ofList cs := by
          apply String.toList_injective
          simp
        rw [hcons, String.utf8ByteSize_append, String.utf8ByteSize_singleton, ih, byteLength_cons]
  rw [← h, String.ofList_toList]

theorem append_inj_of_byteLength {a b x y : List Char} (h : a ++ x = b ++ y)
    (hl : byteLength a = byteLength b) : a = b ∧ x = y := by
  induction a generalizing b with
  | nil =>
      cases b with
      | nil => exact ⟨rfl, h⟩
      | cons d b => have := d.utf8Size_pos; simp only [byteLength_nil, byteLength_cons] at hl; omega
  | cons c a ih =>
      cases b with
      | nil => have := c.utf8Size_pos; simp only [byteLength_nil, byteLength_cons] at hl; omega
      | cons d b =>
          obtain ⟨rfl, htail⟩ := List.cons.inj h
          simp only [byteLength_cons] at hl
          obtain ⟨rfl, hx⟩ := ih htail (by omega)
          exact ⟨rfl, hx⟩

/-- Of two ways to cut a text, the later one only adds to the first part. -/
theorem append_le_of_byteLength {a b x y : List Char} (h : a ++ x = b ++ y)
    (hl : byteLength a ≤ byteLength b) : ∃ s, b = a ++ s ∧ x = s ++ y := by
  rcases List.append_eq_append_iff.mp h with ⟨s, hb, hx⟩ | ⟨s, ha, hy⟩
  · exact ⟨s, hb, hx⟩
  · rw [ha, byteLength_append] at hl
    have hs : s = [] := by
      cases s with
      | nil => rfl
      | cons c s => have := c.utf8Size_pos; simp only [byteLength_cons] at hl; omega
    subst hs
    simp only [List.append_nil, List.nil_append] at ha hy
    exact ⟨[], by simp [ha], by simp [hy]⟩

namespace Cursor

/-- From `c` to `d` exactly the characters `s` are read. -/
def Reads (c : Cursor) (s : List Char) (d : Cursor) : Prop :=
  c.rest = s ++ d.rest ∧ d.offset = c.offset + byteLength s

theorem Reads.refl (c : Cursor) : c.Reads [] c := ⟨rfl, rfl⟩

theorem Reads.append {c d e : Cursor} {s t : List Char} (h : c.Reads s d) (k : d.Reads t e) :
    c.Reads (s ++ t) e := by
  refine ⟨?_, ?_⟩
  · rw [h.1, k.1, List.append_assoc]
  · rw [k.2, h.2, byteLength_append, Nat.add_assoc]

theorem Reads.unique {c d e : Cursor} {s : List Char} (h : c.Reads s d) (k : c.Reads s e) :
    d = e := by
  have hrest : d.rest = e.rest := List.append_cancel_left (h.1.symm.trans k.1)
  have hoffset : d.offset = e.offset := h.2.trans k.2.symm
  cases d
  cases e
  simp_all

theorem Reads.offset_add {c d : Cursor} {s : List Char} (h : c.Reads s d) :
    d.offset + byteLength d.rest = c.offset + byteLength c.rest := by
  rw [h.2, h.1, byteLength_append, Nat.add_assoc]

theorem reads_cons (offset : Nat) (c : Char) (rest : List Char) :
    Reads ⟨offset, c :: rest⟩ [c] ⟨offset + c.utf8Size, rest⟩ := ⟨rfl, by simp⟩

theorem In.start (cs : List Char) : In ⟨0, cs⟩ cs := ⟨[], rfl, rfl⟩

theorem In.reads {c d : Cursor} {cs s : List Char} (hc : c.In cs) (h : c.Reads s d) : d.In cs := by
  obtain ⟨before, rfl, hoff⟩ := hc
  exact ⟨before ++ s, by rw [h.1, List.append_assoc], by rw [h.2, hoff, byteLength_append]⟩

theorem In.offset_add {c : Cursor} {cs : List Char} (hc : c.In cs) :
    c.offset + byteLength c.rest = byteLength cs := by
  obtain ⟨before, rfl, hoff⟩ := hc
  rw [hoff, byteLength_append]

theorem In.offset_le {c : Cursor} {cs : List Char} (hc : c.In cs) : c.offset ≤ byteLength cs := by
  have := hc.offset_add
  omega

theorem In.reads_of_le {c d : Cursor} {cs : List Char} (hc : c.In cs) (hd : d.In cs)
    (h : c.offset ≤ d.offset) : ∃ s, c.Reads s d := by
  obtain ⟨before, rfl, hoff⟩ := hc
  obtain ⟨further, hsame, hoff'⟩ := hd
  obtain ⟨s, hs, hrest⟩ := append_le_of_byteLength hsame (by rw [← hoff, ← hoff']; exact h)
  exact ⟨s, hrest, by rw [hoff', hs, byteLength_append, hoff]⟩

theorem In.ext {c d : Cursor} {cs : List Char} (hc : c.In cs) (hd : d.In cs)
    (h : c.offset = d.offset) : c = d := by
  obtain ⟨before, rfl, hoff⟩ := hc
  obtain ⟨further, hsame, hoff'⟩ := hd
  have hrest := (append_inj_of_byteLength hsame (by rw [← hoff, ← hoff']; exact h)).2
  cases c
  cases d
  simp_all

theorem In.next_le {c d : Cursor} {cs rest : List Char} {x : Char} (hc : c.In cs) (hd : d.In cs)
    (hx : c.rest = x :: rest) (h : c.offset < d.offset) : c.offset + x.utf8Size ≤ d.offset := by
  obtain ⟨s, hs⟩ := hc.reads_of_le hd (Nat.le_of_lt h)
  cases s with
  | nil => have := hs.2; simp at this; omega
  | cons y s =>
      have hsame := hs.1
      rw [hx] at hsame
      obtain ⟨rfl, -⟩ := List.cons.inj hsame
      rw [hs.2, byteLength_cons]
      omega

/-- What is skipped is the longest run of characters to skip. -/
theorem skip_reads {skipped : Char → Bool} {offset : Nat} {cs : List Char} :
    ∃ s, (∀ c ∈ s, skipped c = true) ∧ Reads ⟨offset, cs⟩ s (skip skipped offset cs) ∧
      ∀ c rest, (skip skipped offset cs).rest = c :: rest → skipped c = false := by
  induction cs generalizing offset with
  | nil => exact ⟨[], by simp, Reads.refl _, by simp [skip]⟩
  | cons c cs ih =>
      rw [skip]
      split
      · rename_i hc
        obtain ⟨s, hs, hread, hstop⟩ := @ih (offset + c.utf8Size)
        refine ⟨c :: s, ?_, (reads_cons offset c cs).append hread, hstop⟩
        simpa [hc] using hs
      · rename_i hc
        refine ⟨[], by simp, Reads.refl _, ?_⟩
        intro d rest h
        obtain ⟨rfl, -⟩ := List.cons.inj h
        simpa using hc

theorem skip_append {skipped : Char → Bool} {s : List Char} (hs : ∀ c ∈ s, skipped c = true)
    (offset : Nat) (cs : List Char) :
    skip skipped offset (s ++ cs) = skip skipped (offset + byteLength s) cs := by
  induction s generalizing offset with
  | nil => rfl
  | cons c s ih =>
      rw [List.cons_append, skip, if_pos (hs c (by simp)), ih (fun d hd => hs d (by simp [hd])),
        byteLength_cons, Nat.add_assoc]

theorem skip_eq (skipped : Char → Bool) (offset : Nat) (cs : List Char) :
    skip skipped offset cs =
      ⟨offset + byteLength (cs.takeWhile skipped), cs.dropWhile skipped⟩ := by
  induction cs generalizing offset with
  | nil => rfl
  | cons c cs ih =>
      rw [skip, List.takeWhile_cons, List.dropWhile_cons]
      split
      · rw [ih, byteLength_cons, Nat.add_assoc]
      · rfl

theorem past?_eq_some_iff {lead : List Char} {offset : Nat} {cs : List Char} {d : Cursor} :
    past? lead offset cs = some d ↔ Reads ⟨offset, cs⟩ lead d := by
  induction lead generalizing offset cs with
  | nil =>
      constructor
      · intro h
        cases h
        exact Reads.refl _
      · intro h
        rw [past?, (Reads.refl _).unique h]
  | cons l lead ih =>
      cases cs with
      | nil => simp [past?, Reads]
      | cons c cs =>
          rw [past?]
          split
          · rename_i hlc
            subst hlc
            rw [ih]
            simp only [Reads, List.cons_append, List.cons.injEq, true_and, byteLength_cons,
              Nat.add_assoc]
          · rename_i hlc
            constructor
            · intro h
              cases h
            · intro h
              exact absurd (List.cons.inj h.1).1.symm hlc

end Cursor

/-- The characters `s` stand in the text `cs` from byte `i` to byte `j`. -/
def Slice (cs : List Char) (i j : Nat) (s : List Char) : Prop :=
  ∃ before after, cs = before ++ (s ++ after) ∧ i = byteLength before ∧ j = i + byteLength s

theorem Slice.exists_reads {cs s : List Char} {i j : Nat} (h : Slice cs i j s) :
    ∃ c d : Cursor, c.In cs ∧ c.offset = i ∧ c.Reads s d ∧ d.offset = j := by
  obtain ⟨before, after, rfl, rfl, rfl⟩ := h
  exact ⟨⟨byteLength before, s ++ after⟩, ⟨byteLength before + byteLength s, after⟩,
    ⟨before, rfl, rfl⟩, rfl, ⟨rfl, rfl⟩, rfl⟩

theorem Cursor.In.slice {c d : Cursor} {cs s : List Char} (hc : c.In cs) (h : c.Reads s d) :
    Slice cs c.offset d.offset s := by
  obtain ⟨before, rfl, hoff⟩ := hc
  exact ⟨before, d.rest, by rw [h.1], hoff, h.2⟩

theorem Cursor.In.reads_of_slice {c : Cursor} {cs s : List Char} {j : Nat} (hc : c.In cs)
    (h : Slice cs c.offset j s) : ∃ d : Cursor, c.Reads s d ∧ d.offset = j := by
  obtain ⟨b, d, hb, hoff, hread, hj⟩ := h.exists_reads
  have hsame : c = b := hc.ext hb hoff.symm
  subst hsame
  exact ⟨d, hread, hj⟩

theorem Slice.mem_of_le {cs s : List Char} {i j k l : Nat} {x : Char} (h : Slice cs i j s)
    (hx : Slice cs k l [x]) (hik : i ≤ k) (hlj : l ≤ j) : x ∈ s := by
  obtain ⟨c, d, hc, rfl, hread, rfl⟩ := h.exists_reads
  obtain ⟨b, e, hb, rfl, hchar, rfl⟩ := hx.exists_reads
  obtain ⟨u, hu⟩ := hc.reads_of_le hb hik
  obtain ⟨v, hv⟩ := (hb.reads hchar).reads_of_le (hc.reads hread) hlj
  have hsame : s ++ d.rest = (u ++ ([x] ++ v)) ++ d.rest :=
    hread.1.symm.trans (hu.append (hchar.append hv)).1
  rw [List.append_cancel_right hsame]
  simp

/-- What a slice begins with are the slices that start where it does and end no later. -/
theorem Slice.begins_iff {cs s w : List Char} {i j : Nat} (h : Slice cs i j s) :
    w <+: s ↔ ∃ r ≤ j, Slice cs i r w := by
  obtain ⟨before, after, rfl, rfl, rfl⟩ := h
  constructor
  · rintro ⟨u, rfl⟩
    exact ⟨byteLength before + byteLength w, by simp, before, u ++ after, by simp, rfl, rfl⟩
  · rintro ⟨r, hr, further, rest, hsame, hi, rfl⟩
    obtain ⟨rfl, hrest⟩ := append_inj_of_byteLength hsame hi
    obtain ⟨u, rfl, -⟩ := append_le_of_byteLength hrest.symm (by omega)
    exact ⟨u, rfl⟩

end Docset.Text
