import Docset.Proofs.Scan.Rendering

/-!
# Literals that run over a grouping call

A literal that starts before a chain and ends behind the start of the chain has the text of
the grouping call in its value: no character of it is a quote or a backslash, so from its
second character on the literal is read in step with the chain. A name that is read so can
be the name of that very chain only if it ends inside the name it is equal to, and then the
rest of that name contains a grouping call again.

So a scan that finds a grouping call too early never makes up for it. How far it lags behind
the chains is measured by where in the list of chains the names start that it still finds;
a round keeps the lag, makes it larger, or leaves a grouping call in front of the chains.
-/
namespace Docset.Scan
open Text (Cursor byteLength)
open Literal (Contents)

namespace Literal

theorem Contents.of_append {q : Char} {s y v : List Char} (h : Contents q (s ++ y) v)
    (hplain : ∀ c ∈ s, c ≠ '\\') : ∃ w, v = s ++ w ∧ Contents q y w := by
  induction s generalizing v with
  | nil => exact ⟨v, rfl, h⟩
  | cons c s ih =>
      rw [List.cons_append] at h
      generalize htext : s ++ y = text at h
      cases h with
      | plain _ _ h =>
          rw [← htext] at h
          obtain ⟨w, rfl, hw⟩ := ih h (fun d hd => hplain d (by simp [hd]))
          exact ⟨w, rfl, hw⟩
      | escaped => exact absurd rfl (hplain '\\' (by simp))

theorem Contents.of_infix {q : Char} {x s y v : List Char} (h : Contents q (x ++ (s ++ y)) v)
    (hs : s ≠ []) (hplain : ∀ c ∈ s, c ≠ '\\') :
    ∃ w w', v = w ++ (s ++ w') ∧ Contents q y w' := by
  generalize htext : x ++ (s ++ y) = text at h
  induction h generalizing x with
  | nil => simp [hs] at htext
  | @plain c text v hq hc h ih =>
      cases x with
      | nil =>
          have hall : Contents q (s ++ y) (c :: v) := by
            rw [List.nil_append] at htext
            rw [htext]
            exact .plain hq hc h
          obtain ⟨w, hw, hy⟩ := hall.of_append hplain
          exact ⟨[], w, hw, hy⟩
      | cons d x =>
          obtain ⟨w, w', rfl, hy⟩ := ih (List.cons.inj htext).2
          exact ⟨c :: w, w', rfl, hy⟩
  | @escaped c text v h ih =>
      match x with
      | [] =>
          cases s with
          | nil => exact absurd rfl hs
          | cons d s => exact absurd (List.cons.inj htext).1 (hplain d (by simp))
      | [d] =>
          cases s with
          | nil => exact absurd rfl hs
          | cons e s =>
              simp only [List.cons_append, List.nil_append, List.cons.injEq] at htext
              obtain ⟨-, rfl, rfl⟩ := htext
              obtain ⟨w, rfl, hy⟩ := h.of_append (fun d hd => hplain d (by simp [hd]))
              exact ⟨[], w, rfl, hy⟩
      | d :: e :: x =>
          obtain ⟨-, htext⟩ := List.cons.inj htext
          obtain ⟨-, htext⟩ := List.cons.inj htext
          obtain ⟨w, w', rfl, hy⟩ := ih htext
          exact ⟨c :: w, w', rfl, hy⟩

/-- A character that neither ends a literal nor has a meaning of its own in or before one. -/
structure Ordinary (c : Char) : Prop where
  not_quote : isQuote c = false
  ne_backslash : c ≠ '\\'
  not_layout : Text.isLayout c = false

/-- A literal that ends behind the start of an ordinary run has the run in its value and goes on
behind it. -/
theorem crosses_of_read? {u s z : List Char} {offset : Nat} {l : Literal}
    (hs : s ≠ []) (hordinary : ∀ c ∈ s, Ordinary c)
    (h : read? ⟨offset, u ++ (s ++ z)⟩ = .ok (some l))
    (hpast : offset + byteLength u < l.stop.offset) :
    ∃ q w w' y, isQuote q = true ∧ l.value.toList = w ++ (s ++ w') ∧ Contents q y w' ∧
      z = y ++ (q :: l.stop.rest) := by
  obtain ⟨layout, _, hlayout, ⟨q, contents, hq, hcontents, rfl⟩, hrest, hoffset⟩ :=
    read?_eq_ok_some_iff.mp h
  have hne : ∀ c ∈ s, c ≠ q := by
    intro c hc hcq
    have := (hordinary c hc).not_quote
    rw [hcq, hq] at this
    cases this
  -- the run starts behind the opening quote
  have hopen : ∃ x, u = layout ++ (q :: x) ∧ contents ++ (q :: l.stop.rest) = x ++ (s ++ z) := by
    have hsplit : u ++ (s ++ z) = (layout ++ [q]) ++ (contents ++ (q :: l.stop.rest)) := by
      rw [show u ++ (s ++ z) = _ from hrest]
      simp
    rcases List.append_eq_append_iff.mp hsplit with ⟨x, hx, hsz⟩ | ⟨x, hx, hcz⟩
    · cases x with
      | nil => exact ⟨[], by simpa using hx.symm, by simpa using hsz.symm⟩
      | cons d x =>
          cases s with
          | nil => exact absurd rfl hs
          | cons c s =>
              obtain ⟨rfl, -⟩ := List.cons.inj hsz
              have hc : c ∈ layout ++ [q] := by
                rw [hx]
                simp
              rcases List.mem_append.mp hc with hc | hc
              · have := (hordinary c (by simp)).not_layout
                rw [hlayout c hc] at this
                cases this
              · exact absurd (List.mem_singleton.mp hc) (hne c (by simp))
    · exact ⟨x, by simpa using hx, hcz⟩
  obtain ⟨x, rfl, hbody⟩ := hopen
  -- and before the closing one
  have hclose : ∃ y, contents = x ++ (s ++ y) ∧ z = y ++ (q :: l.stop.rest) := by
    rcases List.append_eq_append_iff.mp hbody with ⟨b, rfl, hb⟩ | ⟨b, rfl, hb⟩
    · exfalso
      cases b with
      | nil =>
          cases s with
          | nil => exact hs rfl
          | cons c s => exact hne c (by simp) (List.cons.inj hb).1.symm
      | cons d b =>
          obtain ⟨rfl, -⟩ := List.cons.inj hb
          simp only [Text.byteLength_append, Text.byteLength_cons, Text.byteLength_nil] at hoffset
          simp only [Text.byteLength_append, Text.byteLength_cons] at hpast
          omega
    · rcases List.append_eq_append_iff.mp hb with ⟨y, rfl, hz⟩ | ⟨y, rfl, hz⟩
      · exact ⟨y, rfl, hz⟩
      · cases y with
        | nil => exact ⟨[], by simp, by simpa using hz.symm⟩
        | cons d y =>
            obtain ⟨rfl, -⟩ := List.cons.inj hz
            exact absurd rfl (hne q (by simp))
  obtain ⟨y, rfl, hz⟩ := hclose
  obtain ⟨w, w', hvalue, hy⟩ := hcontents.of_infix hs (fun c hc => (hordinary c hc).ne_backslash)
  exact ⟨q, w, w', y, hq, hvalue, hy, hz⟩

end Literal

/-- A literal that is in step with an escaped text ends at the first of its own quotes there, or
runs over the end of the text. -/
theorem in_step_escape {q r : Char} (hq : q ≠ '\\') (hr : r ≠ '\\') (hqr : q ≠ r)
    {name y v t rest : List Char} (hy : Contents q y v)
    (h : name.flatMap (escape r) ++ (r :: t) = y ++ (q :: rest)) :
    (∃ n, name = v ++ (q :: n) ∧ q ∉ v ∧ rest = n.flatMap (escape r) ++ (r :: t)) ∨
      ∃ w, v = name ++ (r :: w) := by
  induction name generalizing y v with
  | nil =>
      cases hy with
      | nil => exact absurd (List.cons.inj h).1.symm hqr
      | plain hcq hc hy =>
          obtain ⟨rfl, -⟩ := List.cons.inj h
          exact .inr ⟨_, rfl⟩
      | escaped hy => exact absurd (List.cons.inj h).1 hr
  | cons c name ih =>
      rw [List.flatMap_cons, escape] at h
      split at h
      · rename_i hc
        have hcq : q ≠ c := by
          rcases hc with rfl | rfl
          · exact hqr
          · exact hq
        cases hy with
        | nil => exact absurd (List.cons.inj h).1.symm hq
        | plain _ hd _ => exact absurd (List.cons.inj h).1.symm hd
        | escaped hy =>
            obtain ⟨-, htail⟩ := List.cons.inj h
            obtain ⟨rfl, hrest⟩ := List.cons.inj htail
            rcases ih hy hrest with ⟨n, rfl, hv, hrest⟩ | ⟨w, rfl⟩
            · exact .inl ⟨n, rfl, by simp [hcq, hv], hrest⟩
            · exact .inr ⟨w, rfl⟩
      · rename_i hc
        cases hy with
        | nil =>
            obtain ⟨rfl, hrest⟩ := List.cons.inj h
            exact .inl ⟨name, rfl, by simp, hrest.symm⟩
        | plain hdq _ hy =>
            obtain ⟨rfl, hrest⟩ := List.cons.inj h
            rcases ih hy hrest with ⟨n, rfl, hv, hrest⟩ | ⟨w, rfl⟩
            · exact .inl ⟨n, rfl, by simp [hv, Ne.symm hdq], hrest⟩
            · exact .inr ⟨w, rfl⟩
        | escaped hy => exact absurd (.inr (List.cons.inj h).1) hc

theorem groupCall_ordinary : ∀ c ∈ groupCall.spelling, Literal.Ordinary c := by
  have hall : groupCall.spelling.all
      (fun c => !isQuote c && c != '\\' && !Text.isLayout c) = true := by decide
  intro c hc
  have hordinary := List.all_eq_true.mp hall c hc
  simp only [Bool.and_eq_true, Bool.not_eq_true', bne_iff_ne] at hordinary
  exact ⟨hordinary.1.1, hordinary.1.2, hordinary.2⟩

theorem flatMap_escape {q : Char} {s : List Char} (h : ∀ c ∈ s, c ≠ q ∧ c ≠ '\\') :
    s.flatMap (escape q) = s := by
  induction s with
  | nil => rfl
  | cons c s ih =>
      obtain ⟨hq, hslash⟩ := h c (by simp)
      rw [List.flatMap_cons, ih (fun d hd => h d (by simp [hd])), escape,
        if_neg (by simp [hq, hslash])]
      rfl

theorem groupCall_spells_escape {s : List Char} (hs : groupCall.Spells s) (q : Quote) :
    s.flatMap (escape q.char) = s := by
  have hquote : groupCall.Foreign q.char := by
    cases q <;> exact ⟨by decide, by decide, by decide⟩
  have hslash : groupCall.Foreign '\\' := ⟨by decide, by decide, by decide⟩
  apply flatMap_escape
  intro c hc
  constructor
  · rintro rfl
    exact hquote.not_mem hs hc
  · rintro rfl
    exact hslash.not_mem hs hc

theorem suffix_of_not_mem {q : Char} {w s x n : List Char} (hs : q ∉ s)
    (h : w ++ s = x ++ (q :: n)) : ∃ b, n = b ++ s := by
  rcases List.append_eq_append_iff.mp h with ⟨b, -, hb⟩ | ⟨b, -, hb⟩
  · exact absurd (by rw [hb]; simp) hs
  · cases b with
    | nil => exact absurd (by rw [List.nil_append] at hb; rw [← hb]; simp) hs
    | cons d b =>
        rw [List.cons_append] at hb
        exact ⟨b, (List.cons.inj hb).2⟩

/-- A literal that runs over a grouping call into the name there, and whose value is that name,
ends inside the name and leaves a grouping call in front of the end of the name. -/
theorem exists_call_of_value_eq_name {q : Char} (hq : isQuote q = true) {name : Quoted}
    {w v y t rest : List Char} (hvalue : name.value.toList = w ++ (groupCall.spelling ++ v))
    (hy : Contents q y v) (h : name.text ++ t = y ++ (q :: rest)) :
    ∃ x z, rest = x ++ (groupCall.spelling ++ (z ++ t)) := by
  have hq' := Literal.ne_backslash_of_isQuote hq
  have hr := Literal.ne_backslash_of_isQuote name.quote.isQuote_char
  have hne : q ∉ groupCall.spelling := by
    intro hmem
    have := (groupCall_ordinary q hmem).not_quote
    rw [hq] at this
    cases this
  have hshape : name.quote.char :: (name.value.toList.flatMap (escape name.quote.char) ++
      (name.quote.char :: t)) = y ++ (q :: rest) := by
    rw [← h, Quoted.text]
    simp
  by_cases hqr : q = name.quote.char
  · -- it ends where the name starts, so the whole name is left
    subst hqr
    cases hy with
    | nil =>
        obtain ⟨-, hleft⟩ := List.cons.inj hshape
        rw [List.append_nil] at hvalue
        refine ⟨w.flatMap (escape name.quote.char), [name.quote.char], ?_⟩
        rw [← hleft, hvalue, List.flatMap_append, groupCall_spells_escape groupCall.spells_spelling]
        simp
    | plain hcq _ _ => exact absurd (List.cons.inj hshape).1.symm hcq
    | escaped hy => exact absurd (List.cons.inj hshape).1 hr
  · -- it is in step with the name from its opening quote on
    cases hy with
    | nil => exact absurd (List.cons.inj hshape).1.symm hqr
    | escaped hy => exact absurd (List.cons.inj hshape).1 hr
    | @plain c y v _ _ hy =>
        obtain ⟨rfl, hstep⟩ := List.cons.inj hshape
        rcases in_step_escape hq' hr hqr hy hstep with ⟨n, hname, hv, hrest⟩ | ⟨z, hv⟩
        · have hfree : q ∉ groupCall.spelling ++ (name.quote.char :: v) := by
            simp [hne, hqr, hv]
          obtain ⟨b, rfl⟩ := suffix_of_not_mem hfree (hvalue.symm.trans hname)
          refine ⟨b.flatMap (escape name.quote.char),
            (name.quote.char :: v).flatMap (escape name.quote.char) ++ [name.quote.char], ?_⟩
          rw [hrest, List.flatMap_append, List.flatMap_append,
            groupCall_spells_escape groupCall.spells_spelling]
          simp
        · -- over the end of the name it would be longer than the name
          have hlength := congrArg List.length hvalue
          rw [hv] at hlength
          simp only [List.length_append, List.length_cons] at hlength
          omega

/-- A name read over the start of the chains ahead is the name of the chain at `d` only if it ends
inside one of the chains up to there; in that chain itself it leaves a grouping call. -/
theorem swallowed_of_read? {m : List Chain} {d : Nat} {g : Chain} (hg : m[d]? = some g)
    {u : List Char} {offset : Nat} {l : Literal}
    (hread : Literal.read? ⟨offset, u ++ chainsText m⟩ = .ok (some l))
    (hpast : offset + byteLength u < l.stop.offset) (hname : l.value = g.name.value) :
    ∃ k b, k ≤ d ∧ l.stop.rest = b ++ chainsText (m.drop (k + 1)) ∧
      (k = d → ¬ groupCall.CallFree b) := by
  induction d generalizing m u with
  | zero =>
      cases m with
      | nil => cases hg
      | cons r m =>
          cases hg
          rw [chainsText_cons_spelling] at hread
          obtain ⟨q, w, v, y, hq, hvalue, hy, htext⟩ :=
            Literal.crosses_of_read? (by decide) groupCall_ordinary hread hpast
          rw [hname] at hvalue
          obtain ⟨x, z, hrest⟩ := exists_call_of_value_eq_name hq hvalue hy htext
          refine ⟨0, x ++ (groupCall.spelling ++ (z ++ g.tail)), Nat.le_refl 0, ?_, ?_⟩
          · simp [hrest]
          · intro _
            exact CallPattern.not_callFree_of_infix groupCall.spells_spelling _ _
  | succ d ih =>
      cases m with
      | nil => cases hg
      | cons r m =>
          have hshape : u ++ chainsText (r :: m) = (u ++ r.text) ++ chainsText m := by
            simp [chainsText]
          rw [hshape] at hread
          by_cases hends : l.stop.offset ≤ offset + byteLength (u ++ r.text)
          · have hembed : Literal.read?
                (Cursor.embed 0 (chainsText m) ⟨offset, u ++ r.text⟩) = .ok (some l) := by
              rwa [Cursor.embed, Nat.zero_add]
            obtain ⟨k, -, rfl⟩ := Literal.read?_of_embed hembed (by simpa using hends)
            refine ⟨0, k.stop.rest, Nat.zero_le _, rfl, ?_⟩
            intro h
            cases h
          · obtain ⟨k, b, hk, hrest, hcall⟩ := ih hg hread (Nat.not_le.mp hends)
            exact ⟨k + 1, b, Nat.succ_le_succ hk, hrest, fun h => hcall (Nat.succ.inj h)⟩

def Chain.names (m : List Chain) : List String := m.map fun g => g.name.value

theorem Chain.names_drop_eq_cons {m : List Chain} {d : Nat} {x : String} {xs : List String}
    (h : x :: xs = Chain.names (m.drop d)) :
    ∃ g, m[d]? = some g ∧ x = g.name.value ∧ xs = Chain.names (m.drop (d + 1)) ∧
      d < m.length := by
  cases hdrop : m.drop d with
  | nil =>
      rw [hdrop] at h
      cases h
  | cons g rest =>
      have hlt : d < m.length := by
        have hpos := congrArg List.length hdrop
        simp only [List.length_drop, List.length_cons] at hpos
        omega
      have hcons := List.drop_eq_getElem_cons hlt
      rw [hdrop] at hcons h
      obtain ⟨rfl, rfl⟩ := List.cons.inj hcons
      obtain ⟨rfl, rfl⟩ := List.cons.inj h
      exact ⟨m[d], List.getElem?_eq_getElem hlt, rfl, rfl, hlt⟩

/-- From a place on where `u` stands in front of the chains `m`, up to byte `length`, a scan finds
the names of the chains from the one at `d` on: it lags behind by `d`. -/
def Lags (length : Nat) (u : List Char) (m : List Chain) (d : Nat) : Prop :=
  d ≤ m.length ∧ ∃ offset gs, offset + byteLength (u ++ chainsText m) = length ∧
    groupsFrom {} length ⟨offset, u ++ chainsText m⟩ = .ok gs ∧
    gs.map (fun g => g.name) = Chain.names (m.drop d)

/-- A chain that is found leaves the lag as it is. -/
theorem Lags.chain {length d : Nat} {u : List Char} {g : Chain} {m : List Chain}
    (h : Lags length u (g :: m) d) (hfree : groupCall.CallFree u) : Lags length g.tail m d := by
  obtain ⟨-, offset, gs, hlength, hgroups, hnames⟩ := h
  rw [groupsFrom_chainsText hfree hlength] at hgroups
  rw [Text.byteLength_append, ← Nat.add_assoc] at hlength
  obtain ⟨vs, rest, -, hrest, rfl⟩ := groupsFrom_header_cases hlength hgroups
  obtain ⟨-, -, -, hnames', hlt⟩ := Chain.names_drop_eq_cons hnames
  rw [chainsText_cons, Text.byteLength_append, ← Nat.add_assoc] at hlength
  exact ⟨Nat.le_of_lt_succ hlt, _, rest, hlength, hrest, hnames'⟩

/-- A call in front of the chains is found before them, and the lag is not made up for: either it
is larger then, or there is a call in front of the chains again. -/
theorem Lags.call {length d : Nat} {u : List Char} {m : List Chain} (h : Lags length u m d)
    (hcall : ¬ groupCall.CallFree u) :
    ∃ v n k, Lags length v n k ∧ (v ++ chainsText n).length < (u ++ chainsText m).length ∧
      (k = 0 → ¬ groupCall.CallFree v) := by
  obtain ⟨-, offset, gs, hlength, hgroups, hnames⟩ := h
  rw [Text.byteLength_append, ← Nat.add_assoc] at hlength
  have hseam := CallPattern.find?_seam (apart_chainsText u m)
    (show offset + byteLength u ≤ length by omega)
  cases hfirst : groupCall.find? (offset + byteLength u) offset u with
  | none => exact absurd ((CallPattern.callFree_iff_find? offset).mpr hfirst) hcall
  | some next =>
      rw [hfirst] at hseam
      obtain ⟨s, hargs⟩ := CallPattern.reads_of_find? (c := ⟨offset, u⟩) hfirst
      have hsame : next.args.offset + byteLength next.args.rest = offset + byteLength u :=
        hargs.offset_add
      rcases groupsFrom_cases hgroups with ⟨hfind, -⟩ |
        ⟨found, name, vs, rest, hfind, hread, hshorter, -, hrest, rfl⟩
      · rw [groupPattern_default] at hfind
        rw [hfind] at hseam
        cases hseam
      · rw [groupPattern_default] at hfind
        rw [hfind] at hseam
        cases hseam
        obtain ⟨g, hg, hname, hnames', hlt⟩ := Chain.names_drop_eq_cons hnames
        by_cases hends : name.stop.offset ≤ offset + byteLength u
        · -- the name ends before the chains
          obtain ⟨l, hl, rfl⟩ := Literal.read?_of_embed hread (by omega)
          obtain ⟨layout, w, -, -, hreads⟩ := Literal.read?_eq_ok_some_iff.mp hl
          have hsame' := hreads.offset_add
          refine ⟨l.stop.rest, m, d + 1, ⟨hlt, 0 + l.stop.offset, rest, ?_, hrest, hnames'⟩,
            hshorter, ?_⟩
          · rw [Text.byteLength_append]
            omega
          · intro h
            cases h
        · -- the name runs into them
          simp only [CallMatch.embed, Cursor.embed, Nat.zero_add] at hread
          obtain ⟨layout, w, -, -, hreads⟩ := Literal.read?_eq_ok_some_iff.mp hread
          have hsame' := hreads.offset_add
          obtain ⟨k, b, hk, hleft, hagain⟩ := swallowed_of_read? hg hread (by omega) hname
          have hstop : name.stop = ⟨name.stop.offset, b ++ chainsText (m.drop (k + 1))⟩ := by
            rw [← hleft]
          have hbehind : m.drop (d + 1) = (m.drop (k + 1)).drop (d - k) := by
            rw [List.drop_drop]
            congr 1
            omega
          rw [hstop] at hrest
          rw [hleft] at hshorter hsame'
          rw [hbehind] at hnames'
          simp only [Text.byteLength_append] at hsame'
          refine ⟨b, m.drop (k + 1), d - k, ⟨?_, name.stop.offset, rest, ?_, hrest, hnames'⟩,
            hshorter, ?_⟩
          · rw [List.length_drop]
            omega
          · rw [Text.byteLength_append]
            omega
          · intro h
            exact hagain (by omega)

/-- A scan that ends in step has never been out of step. -/
theorem Lags.eq_zero {length d : Nat} {u : List Char} {m : List Chain} (h : Lags length u m d) :
    d = 0 ∧ groupCall.CallFree u := by
  induction hn : (u ++ chainsText m).length using Nat.strongRecOn generalizing u m d with
  | ind n ih =>
      subst hn
      have hfree : groupCall.CallFree u := by
        apply Classical.byContradiction
        intro hcall
        obtain ⟨v, n, k, hlag, hshorter, hagain⟩ := h.call hcall
        obtain ⟨hk, hv⟩ := ih _ hshorter hlag rfl
        exact hagain hk hv
      refine ⟨?_, hfree⟩
      cases m with
      | nil => exact Nat.le_zero.mp h.1
      | cons g m =>
          have hshorter : (g.tail ++ chainsText m).length < (u ++ chainsText (g :: m)).length := by
            simp [chainsText_cons, Chain.header, Quoted.text]
            omega
          exact (ih _ hshorter (h.chain hfree) rfl).1

end Docset.Scan
