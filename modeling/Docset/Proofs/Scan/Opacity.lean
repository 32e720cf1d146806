import Docset.Proofs.Scan.Crossing

/-!
# What a scan sees of the strings in a module

Quotes are tracked only while a literal or a region is read. A string that is the second
argument of a variant call is neither: the searches for the next grouping call and for the
next mark run over it as over any other text, and the search for grouping calls runs over
the names of variants as well. So a rendered module is not always scanned back to what was
rendered. It is exactly if no grouping call stands in a variant's name or in an argument and
each chain's tail falls into gaps, regions and the variants of the chain.

Both directions count. That nothing else makes the result right rests on how literals cross
chains: a grouping call found in an argument is never made up for, and a variant's name that
runs out of its window has a grouping call in it.
-/
namespace Docset.Scan
open Text (Cursor byteLength)

/-- A literal with chains behind it ends before them, unless it has a grouping call in its value. -/
theorem literal_ends_of_not_call {m : List Chain} {c : Cursor} {before : Nat} {l : Literal}
    (h : Literal.read? (c.embed before (chainsText m)) = .ok (some l))
    (hvalue : ∀ x z, l.value.toList ≠ x ++ (groupCall.spelling ++ z)) :
    l.stop.offset ≤ before + c.offset + byteLength c.rest := by
  apply Nat.le_of_not_lt
  intro hpast
  cases m with
  | nil =>
      obtain ⟨layout, w, -, -, hreads⟩ := Literal.read?_eq_ok_some_iff.mp h
      have hoffset := hreads.offset_add
      simp only [Cursor.embed, chainsText, List.flatMap_nil, List.append_nil] at hoffset
      omega
  | cons g m =>
      rw [Cursor.embed, chainsText_cons_spelling] at h
      obtain ⟨q, x, z, y, -, hcall, -, -⟩ :=
        Literal.crosses_of_read? (by decide) groupCall_ordinary h hpast
      exact hvalue x z hcall

/-- Variants found with chains behind the window are found without them, unless one of them has a
grouping call in its name. -/
theorem variantsFrom_of_embed {p : CallPattern} {m : List Chain} {stop before : Nat} {c : Cursor}
    {vs : List String} (hstop : stop ≤ c.offset + byteLength c.rest)
    (hvs : ∀ v ∈ vs, ∀ x z, v.toList ≠ x ++ (groupCall.spelling ++ z))
    (h : variantsFrom p (before + stop) (c.embed before (chainsText m)) = .ok vs) :
    variantsFrom p stop c = .ok vs := by
  induction hn : c.rest.length using Nat.strongRecOn generalizing c vs with
  | ind n ih =>
      subst hn
      have hmark := @mark?_embed p stop c.offset c.rest before (chainsText m) hstop
      rw [variantsFrom_eq]
      rcases variantsFrom_cases h with ⟨hfound, rfl⟩ | ⟨place, next, hfound, hclose, -, hrest⟩ |
        ⟨args, literal, ws, hfound, hread, hvalue, -, hrest, rfl⟩
      · rw [Cursor.embed, hmark, Option.map_eq_none_iff] at hfound
        rw [hfound]
      · rw [Cursor.embed, hmark, Option.map_eq_some_iff] at hfound
        obtain ⟨mark, hhere, hsame⟩ := hfound
        cases mark with
        | call args => cases hsame
        | brace inner =>
            cases hsame
            obtain ⟨s, tail, hreads, hopen⟩ := reads_of_mark?_brace hhere
            have hoffset := hreads.offset_add
            have hembed := @matchBrace_embed stop inner tail hopen before (chainsText m) (by omega)
            rw [hclose] at hembed
            cases hnext : matchBrace stop inner with
            | error e =>
                rw [hnext] at hembed
                cases hembed
            | ok d =>
                rw [hnext] at hembed
                cases hembed
                obtain ⟨w, -, hreads', -⟩ := (matchBrace_eq_ok_iff hopen).mp hnext
                have hoffset' := hreads'.offset_add
                have hshorter := Nat.lt_of_lt_of_le (matchBrace_length_lt hnext)
                  (mark?_brace_length_le hhere)
                simp only [hhere, hnext]
                exact ih _ hshorter (by omega) hvs hrest rfl
      · rw [Cursor.embed, hmark, Option.map_eq_some_iff] at hfound
        obtain ⟨mark, hhere, hsame⟩ := hfound
        cases mark with
        | brace place => cases hsame
        | call inner =>
            cases hsame
            obtain ⟨s, hreads⟩ := reads_of_mark?_call hhere
            have hoffset := hreads.offset_add
            have hends : literal.stop.offset ≤ before + inner.offset + byteLength inner.rest :=
              literal_ends_of_not_call hread (hvs _ (by simp))
            obtain ⟨k, hk, rfl⟩ := Literal.read?_of_embed hread hends
            obtain ⟨layout, w, -, -, hreads'⟩ := Literal.read?_eq_ok_some_iff.mp hk
            have hoffset' := hreads'.offset_add
            have hshorter := Nat.lt_trans (Literal.read?_length_lt hk)
              (mark?_call_length_lt hhere)
            have hnext := ih _ hshorter (by omega) (fun v hv => hvs v (by simp [hv])) hrest rfl
            change k.value ≠ "" at hvalue
            simp only [hhere, hk]
            rw [if_neg (by simpa using hvalue), hnext]
            rfl

theorem callFree_escape (q : Quote) (cs : List Char) :
    groupCall.CallFree (cs.flatMap (escape q.char)) ↔ groupCall.CallFree cs := by
  constructor
  · rintro h i a ⟨s, hs, before, after, rfl, -, -⟩
    rw [List.flatMap_append, List.flatMap_append, groupCall_spells_escape hs] at h
    exact CallPattern.not_callFree_of_infix hs _ _ h
  · rintro h i a ⟨s, hs, before, after, htext, -, -⟩
    have hslash : groupCall.Foreign '\\' := ⟨by decide, by decide, by decide⟩
    have hcontents := contents_escape q.char cs
    rw [htext] at hcontents
    have hne : s ≠ [] := by
      rintro rfl
      exact absurd hs.byteLength_pos (Nat.lt_irrefl 0)
    obtain ⟨w, w', hw, -⟩ := hcontents.of_infix hne (by
      rintro c hc rfl
      exact hslash.not_mem hs hc)
    rw [hw] at h
    exact CallPattern.not_callFree_of_infix hs _ _ h

theorem Quoted.callFree_text (l : Quoted) :
    groupCall.CallFree l.text ↔ groupCall.CallFree l.value.toList := by
  have hfirst : 's' ∉ [l.quote.char] := by
    cases l.quote <;> decide
  have hquote : groupCall.Foreign l.quote.char := by
    cases l.quote <;> exact ⟨by decide, by decide, by decide⟩
  have hfree := CallPattern.callFree_of_not_mem groupCall_lead hfirst
  rw [Quoted.text, ← List.singleton_append,
    CallPattern.callFree_append (CallPattern.apart_of_not_mem groupCall_lead hfirst _),
    CallPattern.callFree_append (hquote.apart _ _), callFree_escape]
  simp only [hfree, true_and, and_true]

/-- The scan of the chains of a text gives the chains exactly if nothing else is taken for a
grouping call and each tail has the variants of its chain. -/
theorem groupsFrom_chains_iff {m : List Chain} {offset length : Nat}
    (hlength : offset + byteLength (chainsText m) = length) :
    groupsFrom {} length ⟨offset, chainsText m⟩ = .ok (m.map Chain.group) ↔
      ∀ g ∈ m, groupCall.CallFree g.tail ∧
        Window variantCall g.tail (byteLength g.tail) 0 g.variants := by
  constructor
  · intro h
    induction m generalizing offset with
    | nil => simp
    | cons g m ih =>
        obtain ⟨vs, rest, hvs, hrest, hgroups⟩ := groupsFrom_header_cases hlength h
        obtain ⟨hgroup, rfl⟩ := List.cons.inj hgroups
        cases hgroup
        have hbehind : offset + byteLength g.header + byteLength (g.tail ++ chainsText m) =
            length := by
          rw [chainsText_cons, Text.byteLength_append] at hlength
          omega
        have hlags : Lags length g.tail m 0 :=
          ⟨Nat.zero_le _, _, _, hbehind, hrest, by simp [Chain.names, Chain.group]⟩
        have hfree := hlags.eq_zero.2
        rw [groupsFrom_chainsText hfree hbehind] at hrest
        rw [windowStop_chainsText hfree hbehind] at hvs
        rw [Text.byteLength_append, ← Nat.add_assoc] at hbehind
        have hvalues : ∀ v ∈ g.variants, ∀ x z, v.toList ≠ x ++ (groupCall.spelling ++ z) := by
          intro v hv x z hvalue
          obtain ⟨e, he, rfl⟩ := List.mem_map.mp hv
          have hname := (e.name.callFree_text).mp (g.callFree_tail.mp hfree e he).1
          rw [hvalue] at hname
          exact CallPattern.not_callFree_of_infix groupCall.spells_spelling x z hname
        have hwindow : variantsFrom variantCall (byteLength g.tail) ⟨0, g.tail⟩ =
            .ok g.variants :=
          variantsFrom_of_embed (by simp) hvalues hvs
        rw [← Nat.zero_add (byteLength g.tail), variantsFrom_eq_ok_iff_window] at hwindow
        rw [List.forall_mem_cons]
        exact ⟨⟨hfree, hwindow⟩, ih hbehind hrest⟩
  · intro h
    exact groupsFrom_chains (fun g hg => (h g hg).1) (fun g hg => (h g hg).2) hlength

theorem reads_of_balanced {c d : Cursor} {w rest : List Char} {before : Nat} (hbrace : '}' ∉ rest)
    (hw : Balanced w) (h : (c.embed before rest).Reads w d) :
    ∃ e, c.Reads w e ∧ d = e.embed before rest := by
  apply h.of_embed
  obtain ⟨r, -, rfl⟩ := hw
  have htext : c.rest ++ rest = ('{' :: r) ++ ('}' :: d.rest) := by
    have := h.1
    simpa [Cursor.embed] using this
  rcases List.append_eq_append_iff.mp htext with ⟨b, -, hb⟩ | ⟨b, hb, hrest⟩
  · exact absurd (by rw [hb]; simp) hbrace
  · cases b with
    | nil => exact absurd (by rw [List.nil_append] at hrest; rw [← hrest]; simp) hbrace
    | cons x b =>
        obtain ⟨rfl, -⟩ := List.cons.inj hrest
        rw [h.2, hb]
        simp only [Cursor.embed, Text.byteLength_append, Text.byteLength_cons, Text.byteLength_nil]
        omega

/-- A stretch in which no variant is found together with what follows it has none by itself, if no
region can end behind it. -/
theorem variantsFrom_of_append {p : CallPattern} {c : Cursor} {rest : List Char} {n stop : Nat}
    (hapart : p.Apart c.rest rest) (hbrace : '}' ∉ rest)
    (hn : c.offset + byteLength c.rest = n) (hstop : n ≤ stop)
    (h : variantsFrom p stop (c.embed 0 rest) = .ok []) : variantsFrom p n c = .ok [] := by
  induction hlen : c.rest.length using Nat.strongRecOn generalizing c with
  | ind len ih =>
      subst hlen
      have hmark := @mark?_seam p c.rest rest stop hapart c.offset (by omega)
      rw [hn] at hmark
      cases hhere : mark? p n c.offset c.rest with
      | none => rw [variantsFrom_eq, hhere]
      | some mark =>
          rw [hhere] at hmark
          rcases variantsFrom_cases h with ⟨hfound, -⟩ | ⟨place, next, hfound, hclose, -, hrest⟩ |
            ⟨args, literal, ws, -, -, -, -, -, hvs⟩
          · rw [Cursor.embed, Nat.zero_add, hmark] at hfound
            cases hfound
          · rw [Cursor.embed, Nat.zero_add, hmark] at hfound
            cases mark with
            | call args => cases hfound
            | brace inner =>
                cases hfound
                obtain ⟨s, tail, hreads, hopen⟩ := reads_of_mark?_brace hhere
                have hoffset := hreads.offset_add
                have hopen' : (inner.embed 0 rest).rest = '{' :: (tail ++ rest) := by
                  simp only [Cursor.embed, hopen, List.cons_append]
                obtain ⟨w, hw, hreads', -⟩ := (matchBrace_eq_ok_iff hopen').mp hclose
                obtain ⟨d, hinner, rfl⟩ := reads_of_balanced hbrace hw hreads'
                have hoffset' := hinner.offset_add
                have hnext : matchBrace n inner = .ok d :=
                  (matchBrace_eq_ok_iff hopen).mpr ⟨w, hw, hinner, by omega⟩
                have hshorter := Nat.lt_of_lt_of_le (matchBrace_length_lt hnext)
                  (mark?_brace_length_le hhere)
                rw [variantsFrom_eq, hhere]
                simp only [hnext]
                exact ih _ hshorter ((hapart.reads hreads).reads hinner) (by omega) hrest rfl
          · cases hvs

theorem Chain.window_tail_iff {g : Chain} {e : Entry} (hentries : g.entries = [e]) :
    Window variantCall g.tail (byteLength g.tail) 0 g.variants ↔ Inert e.argument := by
  constructor
  · intro h
    have hvariants : g.variants = [e.name.value] := by
      simp [Chain.variants, hentries]
    have hshape : g.entries.flatMap Entry.text ++ [';', '\n'] =
        e.header ++ (e.argument ++ [')', ';', '\n']) := by
      simp [hentries, Entry.text]
    have hlength : byteLength g.tail = 1 + byteLength e.header + byteLength e.argument +
        byteLength [')', ';', '\n'] := by
      rw [Chain.tail, hshape]
      simp only [Text.byteLength_append, Text.byteLength_cons, Nat.add_assoc]
      rfl
    have hend : variantCall.Apart e.argument [')', ';', '\n'] := variantCall_paren.apart _ _
    rw [hvariants, ← variantsFrom_eq_ok_iff_window 0, Nat.zero_add, g.variantsFrom_tail, hshape,
      variantsFrom_header e _ (by omega)] at h
    cases hrest : variantsFrom variantCall (byteLength g.tail)
        ⟨1 + byteLength e.header, e.argument ++ [')', ';', '\n']⟩ with
    | error err =>
        rw [hrest] at h
        cases h
    | ok vs =>
        rw [hrest] at h
        cases h
        have hnone := @variantsFrom_of_append variantCall ⟨1 + byteLength e.header, e.argument⟩
          [')', ';', '\n'] _ (byteLength g.tail) hend (by decide) rfl (by simp only; omega)
          (by simpa [Cursor.embed] using hrest)
        exact (variantsFrom_eq_ok_iff_window _).mp hnone
  · intro h
    exact g.window_tail (by simpa [hentries] using h)

/-- No grouping call stands in the name of a variant or in a string. -/
def CallFreeStrings (m : List Chain) : Prop :=
  ∀ g ∈ m, ∀ e ∈ g.entries, groupCall.CallFree e.name.value.toList ∧
    ∀ s : Quoted, e.argument = s.text → groupCall.CallFree s.value.toList

/-- Every tail is cut into gaps, regions and the variants of its chain. -/
def TailsInStep (m : List Chain) : Prop :=
  ∀ g ∈ m, Window variantCall g.tail (byteLength g.tail) 0 g.variants

def InertArguments (m : List Chain) : Prop := ∀ g ∈ m, ∀ e ∈ g.entries, Inert e.argument

theorem scan_render_iff {m : List Chain} (hlimit : Options.Admits {} (render m))
    (hstrings : ∀ g ∈ m, ∀ e ∈ g.entries, ∃ s : Quoted, e.argument = s.text) :
    scan {} (render m) = .ok (m.map Chain.group) ↔ CallFreeStrings m ∧ TailsInStep m := by
  have hfree : CallFreeStrings m ↔ ∀ g ∈ m, groupCall.CallFree g.tail := by
    constructor
    · intro h g hg
      apply g.callFree_tail.mpr
      intro e he
      obtain ⟨s, hs⟩ := hstrings g hg e he
      rw [hs, Quoted.callFree_text, Quoted.callFree_text]
      exact ⟨(h g hg e he).1, (h g hg e he).2 s hs⟩
    · intro h g hg e he
      obtain ⟨hname, hargument⟩ := g.callFree_tail.mp (h g hg) e he
      refine ⟨(Quoted.callFree_text _).mp hname, ?_⟩
      intro s hs
      rw [hs] at hargument
      exact (Quoted.callFree_text s).mp hargument
  rw [scan_eq_scanUnlimited hlimit, scanUnlimited_eq, render, String.toList_ofList,
    groupsFrom_chains_iff (Nat.zero_add _), hfree]
  constructor
  · intro h
    exact ⟨fun g hg => (h g hg).1, fun g hg => (h g hg).2⟩
  · rintro ⟨hcalls, htails⟩ g hg
    exact ⟨hcalls g hg, htails g hg⟩

theorem tailsInStep_iff {m : List Chain} (hsingle : ∀ g ∈ m, g.entries.length ≤ 1) :
    TailsInStep m ↔ InertArguments m := by
  constructor
  · intro h g hg e he
    have hentries : g.entries = [e] := by
      match hes : g.entries, hsingle g hg with
      | [], _ =>
          rw [hes] at he
          cases he
      | [d], _ =>
          rw [hes] at he
          rw [List.mem_singleton.mp he]
    exact (Chain.window_tail_iff hentries).mp (h g hg)
  · intro h g hg
    exact g.window_tail (h g hg)

/-- What a scan makes of a module whose second arguments are strings. It returns the groups exactly
if no grouping call stands in a variant's name or a string and all tails are in step. It does if in
addition all strings are inert, and with at most one variant to a group only then. -/
theorem scan_render_of_strings (m : List Chain) (hlimit : Options.Admits {} (render m))
    (hstrings : ∀ g ∈ m, ∀ e ∈ g.entries, ∃ s : Quoted, e.argument = s.text) :
    (scan {} (render m) = .ok (m.map Chain.group) ↔ CallFreeStrings m ∧ TailsInStep m) ∧
      (CallFreeStrings m → InertArguments m → scan {} (render m) = .ok (m.map Chain.group)) ∧
      ((∀ g ∈ m, g.entries.length ≤ 1) →
        (scan {} (render m) = .ok (m.map Chain.group) ↔
          CallFreeStrings m ∧ InertArguments m)) := by
  have hiff := scan_render_iff hlimit hstrings
  refine ⟨hiff, ?_, ?_⟩
  · intro hfree hinert
    exact hiff.mpr ⟨hfree, fun g hg => g.window_tail (hinert g hg)⟩
  · intro hsingle
    rw [hiff, tailsInStep_iff hsingle]

theorem scan_render_harmless_strings :
    scan {} (render [⟨⟨"storiesOf('A')", .single⟩,
        [⟨⟨".add('x')", .single⟩, Quoted.text ⟨"\x7b x.add('y') \x7d", .double⟩, by decide⟩,
          ⟨⟨"\x7b", .double⟩, Quoted.text ⟨"it's .add \x7d", .single⟩, by decide⟩]⟩]) =
      .ok [⟨"storiesOf('A')", [".add('x')", "\x7b"]⟩] := by
  refine (scan_render_of_strings _ ?_ ?_).2.1 ?_ ?_
  · rintro limit ⟨⟩
    decide
  · simp only [List.forall_mem_cons, List.not_mem_nil, false_implies, implies_true, and_true]
    exact ⟨⟨_, rfl⟩, ⟨_, rfl⟩⟩
  · simp only [CallFreeStrings, List.forall_mem_cons, List.not_mem_nil, false_implies,
      implies_true, and_true, ← Quoted.callFree_text]
    refine ⟨⟨?_, ?_⟩, ?_, ?_⟩
    · exact (CallPattern.callFree_iff_find? 0).mpr (by decide)
    · rintro s hs
      rw [← hs]
      exact (CallPattern.callFree_iff_find? 0).mpr (by decide)
    · exact (CallPattern.callFree_iff_find? 0).mpr (by decide)
    · rintro s hs
      rw [← hs]
      exact (CallPattern.callFree_iff_find? 0).mpr (by decide)
  · simp only [InertArguments, List.forall_mem_cons, List.not_mem_nil, false_implies,
      implies_true, and_true]
    exact ⟨(variantsFrom_eq_ok_iff_window 0).mp (by with_unfolding_all rfl),
      (variantsFrom_eq_ok_iff_window 0).mp (by with_unfolding_all rfl)⟩

/-- A string is not opaque: the grouping call in it is taken for a second group. -/
theorem scan_render_group_in_string :
    ¬ ∀ m : List Chain, Options.Admits {} (render m) →
      (∀ g ∈ m, ∀ e ∈ g.entries, ∃ s : Quoted, e.argument = s.text) →
      scan {} (render m) = .ok (m.map Chain.group) := by
  intro h
  have hgroups := h [⟨⟨"A", .single⟩,
    [⟨⟨"x", .single⟩, Quoted.text ⟨"storiesOf('B')", .double⟩, by decide⟩]⟩]
    (by rintro limit ⟨⟩; decide) (by simp only [List.forall_mem_cons, List.not_mem_nil,
      false_implies, implies_true, and_true]; exact ⟨_, rfl⟩)
  have hfound : scan {} (render [⟨⟨"A", .single⟩,
      [⟨⟨"x", .single⟩, Quoted.text ⟨"storiesOf('B')", .double⟩, by decide⟩]⟩]) =
      .ok [⟨"A", ["x"]⟩, ⟨"B", []⟩] := by
    with_unfolding_all rfl
  rw [hfound] at hgroups
  cases hgroups

end Docset.Scan
