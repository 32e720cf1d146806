import Docset.Proofs.Scan.Locality

/-!
# Where two stretches of a text meet

Two stretches are apart for a pattern if no call that starts in the first reaches into the
second. Then a search of both is a search of the first followed by a search of the second,
and so is the loop over the variants of a window. Stretches are apart wherever the second
starts with a character that no call contains, and wherever the first does not contain the
character that every call starts with.
-/
namespace Docset.Scan
open Text (Cursor byteLength)

/-- No call that starts in `u` reaches into `rest`, which follows it. -/
def CallPattern.Apart (p : CallPattern) (u rest : List Char) : Prop :=
  ∀ v w s, u = v ++ w → w ≠ [] → p.Spells s → s <+: w ++ rest → s.length ≤ w.length

theorem CallPattern.Apart.drop {p : CallPattern} {u v w rest : List Char}
    (h : p.Apart u rest) (hu : u = v ++ w) : p.Apart w rest := by
  intro x y s hw hy hs hprefix
  apply h (v ++ x) y s _ hy hs hprefix
  rw [hu, hw, List.append_assoc]

theorem CallPattern.Apart.reads {p : CallPattern} {c d : Cursor} {s rest : List Char}
    (h : p.Apart c.rest rest) (hread : c.Reads s d) : p.Apart d.rest rest :=
  h.drop hread.1

theorem CallPattern.Apart.args?_eq_none {p : CallPattern} {u rest : List Char} {offset : Nat}
    (h : p.Apart u rest) (hu : u ≠ []) (hnone : p.args? offset u = none) :
    p.args? offset (u ++ rest) = none := by
  apply Option.eq_none_iff_forall_ne_some.mpr
  intro d hd
  obtain ⟨s, hs, hread⟩ := args?_eq_some_iff.mp hd
  have hprefix : s <+: u ++ rest := ⟨d.rest, hread.1.symm⟩
  obtain ⟨z, hz⟩ := List.prefix_of_prefix_length_le hprefix (List.prefix_append u rest)
    (h [] u s rfl hu hs hprefix)
  have hhere : p.args? offset u = some ⟨offset + byteLength s, z⟩ :=
    args?_eq_some_iff.mpr ⟨s, hs, hz.symm, rfl⟩
  rw [hhere] at hnone
  cases hnone

theorem CallPattern.Apart.args?_append {p : CallPattern} {u rest : List Char}
    (h : p.Apart u rest) (hu : u ≠ []) (offset : Nat) :
    p.args? offset (u ++ rest) = (p.args? offset u).map (Cursor.embed 0 rest) := by
  cases hargs : p.args? offset u with
  | none => exact h.args?_eq_none hu hargs
  | some d =>
      have hembed := args?_embed hargs 0 rest
      rwa [Nat.zero_add] at hembed

section Seam
variable {p : CallPattern} {u rest : List Char} {stop : Nat}

/-- A search goes through the first part as if it stood alone, and then on. -/
theorem CallPattern.find?_seam (h : p.Apart u rest) {offset : Nat}
    (hstop : offset + byteLength u ≤ stop) :
    p.find? stop offset (u ++ rest) =
      match p.find? (offset + byteLength u) offset u with
      | some m => some (m.embed 0 rest)
      | none => p.find? stop (offset + byteLength u) rest := by
  induction u generalizing offset with
  | nil => rfl
  | cons x u ih =>
      have hpos := x.utf8Size_pos
      simp only [Text.byteLength_cons] at hstop
      have hnext := @ih (h.drop (v := [x]) rfl) (offset + x.utf8Size) (by omega)
      rw [Nat.add_assoc] at hnext
      rw [List.cons_append, find?, find?, Text.byteLength_cons, if_neg (by omega),
        if_neg (by omega), ← List.cons_append, h.args?_append (List.cons_ne_nil x u)]
      cases hargs : p.args? offset (x :: u) with
      | none => exact hnext
      | some d =>
          obtain ⟨s, -, hread⟩ := args?_eq_some_iff.mp hargs
          have hsame := hread.offset_add
          simp only [Text.byteLength_cons] at hsame
          simp only [Option.map_some, Cursor.embed, Nat.zero_add]
          rw [if_pos (by omega), if_pos (by omega)]
          simp only [CallMatch.embed, Cursor.embed, Nat.zero_add]

theorem mark?_seam (h : p.Apart u rest) {offset : Nat} (hstop : offset + byteLength u ≤ stop) :
    mark? p stop offset (u ++ rest) =
      match mark? p (offset + byteLength u) offset u with
      | some m => some (m.embed 0 rest)
      | none => mark? p stop (offset + byteLength u) rest := by
  induction u generalizing offset with
  | nil => rfl
  | cons x u ih =>
      have hpos := x.utf8Size_pos
      simp only [Text.byteLength_cons] at hstop
      have hnext := @ih (h.drop (v := [x]) rfl) (offset + x.utf8Size) (by omega)
      rw [Nat.add_assoc] at hnext
      rw [List.cons_append, mark?, mark?, Text.byteLength_cons,
        if_neg (show ¬ stop ≤ offset by omega),
        if_neg (show ¬ offset + (x.utf8Size + byteLength u) ≤ offset by omega)]
      by_cases hbrace : x = '{'
      · rw [if_pos hbrace, if_pos hbrace]
        simp only [Mark.embed, Cursor.embed, Nat.zero_add, List.cons_append]
      · rw [if_neg hbrace, if_neg hbrace, ← List.cons_append,
          h.args?_append (List.cons_ne_nil x u)]
        cases hargs : p.args? offset (x :: u) with
        | none => exact hnext
        | some d =>
            obtain ⟨s, -, hread⟩ := CallPattern.args?_eq_some_iff.mp hargs
            have hsame := hread.offset_add
            simp only [Text.byteLength_cons] at hsame
            simp only [Option.map_some, Cursor.embed, Nat.zero_add]
            rw [if_pos (by omega), if_pos (by omega)]
            simp only [Mark.embed, Cursor.embed, Nat.zero_add]

/-- The variants of a window whose first part has variants of its own. -/
theorem variantsFrom_seam {c : Cursor} {n : Nat} {vs : List String} (h : p.Apart c.rest rest)
    (hn : c.offset + byteLength c.rest = n) (hstop : n ≤ stop)
    (hvs : variantsFrom p n c = .ok vs) :
    variantsFrom p stop (c.embed 0 rest) =
      (variantsFrom p stop ⟨n, rest⟩).map (vs ++ ·) := by
  induction hlen : c.rest.length using Nat.strongRecOn generalizing c vs with
  | ind len ih =>
      subst hlen
      have hmark := @mark?_seam p c.rest rest stop h c.offset (by omega)
      rw [hn] at hmark
      rw [variantsFrom_eq]
      simp only [Cursor.embed, Nat.zero_add, hmark]
      rcases variantsFrom_cases hvs with ⟨hfound, rfl⟩ |
        ⟨place, next, hfound, hclose, hshorter, hrest⟩ |
        ⟨args, literal, ws, hfound, hliteral, hvalue, hshorter, hrest, rfl⟩
      · have hid : (variantsFrom p stop ⟨n, rest⟩).map ([] ++ ·) =
            variantsFrom p stop ⟨n, rest⟩ := by
          cases variantsFrom p stop ⟨n, rest⟩ <;> rfl
        rw [hid, variantsFrom_eq p stop ⟨n, rest⟩, hfound]
      · obtain ⟨s, tail, hread, hopen⟩ := reads_of_mark?_brace hfound
        obtain ⟨w, hw, hread', hends⟩ := (matchBrace_eq_ok_iff hopen).mp hclose
        have hopen' : (place.embed 0 rest).rest = '{' :: (tail ++ rest) := by
          simp only [Cursor.embed, hopen, List.cons_append]
        have hclose' : matchBrace stop (place.embed 0 rest) = .ok (next.embed 0 rest) := by
          apply (matchBrace_eq_ok_iff hopen').mpr
          exact ⟨w, hw, hread'.embed 0 rest, by simp only [Cursor.embed]; omega⟩
        have hsame := (hread.append hread').offset_add
        simp only [hfound, Mark.embed, hclose']
        exact ih _ hshorter ((h.reads hread).reads hread') (by omega) hrest rfl
      · obtain ⟨s, hread⟩ := reads_of_mark?_call hfound
        obtain ⟨layout, w, -, -, hread'⟩ := Literal.read?_eq_ok_some_iff.mp hliteral
        have hliteral' := @Literal.read?_embed args rest 0 (.inr ⟨literal, hliteral⟩)
        have hsame := (hread.append hread').offset_add
        have hnext := ih _ hshorter ((h.reads hread).reads hread') (by omega) hrest rfl
        simp only [hfound, Mark.embed, hliteral', hliteral, Except.map, mapError_ok,
          Option.map_some, Literal.embed, hnext]
        rw [if_neg (by simpa using hvalue)]
        cases variantsFrom p stop ⟨n, rest⟩ <;> rfl

end Seam

namespace CallPattern

/-- No call stands in the text. -/
def CallFree (p : CallPattern) (cs : List Char) : Prop := ∀ i a, ¬ p.Occurs cs i a

theorem callFree_iff_find? {p : CallPattern} {cs : List Char} (offset : Nat) :
    p.CallFree cs ↔ p.find? (offset + byteLength cs) offset cs = none := by
  have hshift := @find?_embed p (byteLength cs) 0 cs offset [] (by omega)
  rw [Nat.add_zero, List.append_nil] at hshift
  rw [hshift, Option.map_eq_none_iff]
  constructor
  · intro h
    exact find?_eq_none_of_not_occurs (Cursor.In.start cs) (fun j a _ => h j a)
  · intro h j a hoccurs
    have hnone := noneIn_of_find? (Cursor.In.start cs) h (j + 1) j a (Nat.zero_le j)
      (Nat.lt_succ_self j) hoccurs
    have hends := hoccurs.le_byteLength
    omega

/-- A character that occurs in no call. -/
structure Foreign (p : CallPattern) (x : Char) : Prop where
  not_lead : x ∉ p.lead
  not_whiteSpace : Text.isWhiteSpace x = false
  not_paren : x ≠ '('

theorem Foreign.not_mem {p : CallPattern} {x : Char} (h : p.Foreign x) {s : List Char}
    (hs : p.Spells s) : x ∉ s := by
  obtain ⟨blank, hblank, rfl⟩ := hs
  intro hx
  rcases List.mem_append.mp hx with hlead | hx
  · exact h.not_lead hlead
  · rcases List.mem_append.mp hx with hx | hx
    · have := hblank x hx
      rw [h.not_whiteSpace] at this
      cases this
    · exact h.not_paren (List.mem_singleton.mp hx)

theorem Foreign.apart {p : CallPattern} {x : Char} (h : p.Foreign x) (u rest : List Char) :
    p.Apart u (x :: rest) := by
  rintro v w s - - hs hprefix
  apply Nat.le_of_not_lt
  intro hlt
  have hshort : w ++ [x] <+: w ++ (x :: rest) := ⟨rest, by simp⟩
  obtain ⟨z, hz⟩ := List.prefix_of_prefix_length_le hshort hprefix (by simp; omega)
  apply h.not_mem hs
  rw [← hz]
  simp

/-- Where the first character of the lead is missing, no call starts. -/
theorem apart_of_not_mem {p : CallPattern} {x : Char} {lead : List Char}
    (hlead : p.lead = x :: lead) {u : List Char} (h : x ∉ u) (rest : List Char) :
    p.Apart u rest := by
  rintro v w s rfl hw ⟨blank, -, rfl⟩ ⟨z, hz⟩
  cases w with
  | nil => exact absurd rfl hw
  | cons y w =>
      rw [hlead] at hz
      obtain ⟨rfl, -⟩ := List.cons.inj hz
      exact absurd (by simp) h

theorem apart_nil (p : CallPattern) (u : List Char) : p.Apart u [] := by
  rintro v w s - - - hprefix
  rw [List.append_nil] at hprefix
  exact hprefix.length_le

theorem callFree_append {p : CallPattern} {u rest : List Char} (h : p.Apart u rest) :
    p.CallFree (u ++ rest) ↔ p.CallFree u ∧ p.CallFree rest := by
  have hseam := find?_seam h (show 0 + byteLength u ≤ 0 + byteLength (u ++ rest) by simp)
  have hrest := @callFree_iff_find? p rest (0 + byteLength u)
  rw [Nat.add_assoc, ← Text.byteLength_append] at hrest
  rw [callFree_iff_find? 0, hseam, @callFree_iff_find? p u 0, hrest]
  cases find? p (0 + byteLength u) 0 u with
  | some m => simp
  | none => simp

theorem callFree_of_not_mem {p : CallPattern} {x : Char} {lead : List Char}
    (hlead : p.lead = x :: lead) {u : List Char} (h : x ∉ u) : p.CallFree u := by
  rintro i a ⟨s, ⟨blank, -, rfl⟩, before, after, rfl, -, -⟩
  apply h
  rw [hlead]
  simp

theorem not_callFree_of_infix {p : CallPattern} {s : List Char} (hs : p.Spells s)
    (before after : List Char) : ¬ p.CallFree (before ++ (s ++ after)) := by
  intro h
  exact h _ _ ⟨s, hs, before, after, rfl, rfl, rfl⟩

end CallPattern

end Docset.Scan
