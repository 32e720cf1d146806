import Docset.Proofs.Scan.Seam

/-!
# Scanning a text in two parts

At a seam where a grouping call starts, no other grouping call straddles: the characters
of the name tell where a call can and cannot start. So a scan of the whole text is a scan
of the first part, in which nothing changes, followed by a scan of the second part, in
which every offset moves by the length of the first.
-/
namespace Docset.Scan
open Text (Cursor byteLength)

theorem windowStop_shift {o : Options} {cs : List Char} {c : Cursor} (hc : c.In cs)
    (before : Nat) :
    windowStop o (before + byteLength cs) (c.embed before []) =
      before + windowStop o (byteLength cs) c := by
  have hfind := @CallPattern.find?_embed o.groupPattern (byteLength cs) c.offset c.rest before []
    (Nat.le_of_eq hc.offset_add.symm)
  rw [windowStop, windowStop, Cursor.embed, hfind]
  cases o.groupPattern.find? (byteLength cs) c.offset c.rest <;> rfl

theorem groupsFrom_shift {o : Options} {cs : List Char} {c : Cursor} (hc : c.In cs)
    (before : Nat) :
    groupsFrom o (before + byteLength cs) (c.embed before []) =
      (groupsFrom o (byteLength cs) c).mapError (Error.shift before) := by
  induction hn : c.rest.length using Nat.strongRecOn generalizing c with
  | ind n ih =>
      subst hn
      have hfind := @CallPattern.find?_embed o.groupPattern (byteLength cs) c.offset c.rest before
        [] (Nat.le_of_eq hc.offset_add.symm)
      rw [groupsFrom_eq, groupsFrom_eq o (byteLength cs) c]
      simp only [Cursor.embed, hfind]
      cases hfound : o.groupPattern.find? (byteLength cs) c.offset c.rest with
      | none => rfl
      | some next =>
          obtain ⟨hargs, -⟩ := CallPattern.first_of_find? hc hfound
          have hliteral := @Literal.read?_embed next.args [] before (.inl rfl)
          simp only [Option.map_some, CallMatch.embed, hliteral]
          cases hread : Literal.read? next.args with
          | error e => rfl
          | ok found =>
              cases found with
              | none => rfl
              | some name =>
                  have hname := Literal.in_of_read? hargs hread
                  have hsame := hname.offset_add
                  obtain ⟨after, hstop, -⟩ := @windowStop_in o cs name.stop hname
                  have hend := hstop.offset_le
                  have hvariants := @variantsFrom_embed o.variantPattern
                    (windowStop o (byteLength cs) name.stop) name.stop [] before
                    (by simp only at hend; omega) (.inl rfl)
                  have hshorter := Nat.lt_trans (Literal.read?_length_lt hread)
                    (CallPattern.find?_length_lt hfound)
                  have hrest := ih _ hshorter hname rfl
                  simp only [Except.map, mapError_ok, Option.map_some, Literal.embed,
                    windowStop_shift hname, hvariants, hrest]
                  cases variantsFrom o.variantPattern (windowStop o (byteLength cs) name.stop)
                    name.stop with
                  | error e => rfl
                  | ok variants => cases groupsFrom o (byteLength cs) name.stop <;> rfl

/-- A pattern whose calls cannot overlap: its lead has no white space and no parenthesis. -/
structure CallPattern.Plain (p : CallPattern) : Prop where
  lead_ne_nil : p.lead ≠ []
  not_whiteSpace : ∀ c ∈ p.lead, Text.isWhiteSpace c = false
  not_paren : '(' ∉ p.lead

/-- A call that starts before another one ends before it. If it did not, look at the later of the
places where its own lead ends and where the other call starts: the first call has white space or
a parenthesis there, the second a character of its lead. -/
theorem CallPattern.Plain.spells_within {p : CallPattern} (hp : p.Plain) {s t u x y : List Char}
    (hs : p.Spells s) (ht : p.Spells t) (hu : u ≠ []) (h : s ++ x = u ++ (t ++ y)) :
    s.length ≤ u.length := by
  obtain ⟨blank, hblank, rfl⟩ := hs
  obtain ⟨blank', -, rfl⟩ := ht
  apply Nat.le_of_not_lt
  intro hlt
  have hupos := List.length_pos_iff.mpr hu
  have hlead := List.length_pos_iff.mpr hp.lead_ne_nil
  simp only [List.length_append, List.length_singleton] at hlt
  let j := max p.lead.length u.length
  have hleft : (p.lead ++ (blank ++ ['(']) ++ x)[j]? = (blank ++ ['('])[j - p.lead.length]? := by
    rw [List.getElem?_append_left (by simp; omega), List.getElem?_append_right (by omega)]
  have hright : (u ++ (p.lead ++ (blank' ++ ['(']) ++ y))[j]? = p.lead[j - u.length]? := by
    rw [List.getElem?_append_right (by omega), List.append_assoc,
      List.getElem?_append_left (by omega)]
  have hsame : (blank ++ ['('])[j - p.lead.length]? = p.lead[j - u.length]? := by
    rw [← hleft, h, hright]
  have hbound : j - u.length < p.lead.length := by omega
  rw [List.getElem?_eq_getElem hbound] at hsame
  have hmem := List.getElem_mem hbound
  rcases List.mem_append.mp (List.mem_of_getElem? hsame) with hin | hin
  · have := hp.not_whiteSpace _ hmem
    rw [hblank _ hin] at this
    cases this
  · rw [List.mem_singleton] at hin
    rw [hin] at hmem
    exact hp.not_paren hmem

theorem CallPattern.Plain.apart {p : CallPattern} (hp : p.Plain) {t y : List Char}
    (ht : p.Spells t) (u : List Char) : p.Apart u (t ++ y) := by
  rintro v w s - hw hs ⟨x, hx⟩
  exact hp.spells_within hs ht hw hx

section Seam
variable {a b t y : List Char}

theorem CallPattern.find?_spells {p : CallPattern} (ht : p.Spells t) (hb : b = t ++ y)
    (stop offset : Nat) (hstop : offset + byteLength t ≤ stop) :
    p.find? stop offset b = some ⟨offset, ⟨offset + byteLength t, y⟩⟩ := by
  have hpos := ht.byteLength_pos
  have hargs : p.args? offset b = some ⟨offset + byteLength t, y⟩ :=
    args?_eq_some_iff.mpr ⟨t, ht, hb, rfl⟩
  cases b with
  | nil =>
      have hnil := (List.append_eq_nil_iff.mp hb.symm).1
      rw [hnil] at hpos
      exact absurd hpos (Nat.lt_irrefl 0)
  | cons x b =>
      rw [find?, if_neg (by omega), hargs]
      exact if_pos hstop

theorem find?_call_seam {p : CallPattern} (hp : p.Plain) (ht : p.Spells t) (hb : b = t ++ y)
    {c : Cursor} (hc : c.In a) :
    p.find? (byteLength a + byteLength b) c.offset (c.rest ++ b) =
      match p.find? (byteLength a) c.offset c.rest with
      | some m => some (m.embed 0 b)
      | none => p.find? (byteLength a + byteLength b) (byteLength a) b := by
  have hend := hc.offset_add
  have hseam := CallPattern.find?_seam (hb ▸ hp.apart ht c.rest)
    (show c.offset + byteLength c.rest ≤ byteLength a + byteLength b by omega)
  rwa [hend] at hseam

theorem windowStop_seam {o : Options} (hp : o.groupPattern.Plain) (ht : o.groupPattern.Spells t)
    (hb : b = t ++ y) {c : Cursor} (hc : c.In a) :
    windowStop o (byteLength a + byteLength b) (c.embed 0 b) = windowStop o (byteLength a) c := by
  have hfind := find?_call_seam hp ht hb hc
  have hsecond := CallPattern.find?_spells ht hb (byteLength a + byteLength b) (byteLength a)
    (by simp [hb])
  rw [windowStop, windowStop]
  simp only [Cursor.embed, Nat.zero_add, hfind]
  cases o.groupPattern.find? (byteLength a) c.offset c.rest with
  | some m => simp only [CallMatch.embed, Nat.zero_add]
  | none => simp only [hsecond]

theorem groupsFrom_seam {o : Options} (hp : o.groupPattern.Plain) (ht : o.groupPattern.Spells t)
    (hb : b = t ++ y) {c : Cursor} {gs : List Story.Group} (hc : c.In a)
    (h : groupsFrom o (byteLength a) c = .ok gs) :
    groupsFrom o (byteLength a + byteLength b) (c.embed 0 b) =
      (groupsFrom o (byteLength a + byteLength b) ⟨byteLength a, b⟩).map (gs ++ ·) := by
  induction hn : c.rest.length using Nat.strongRecOn generalizing c gs with
  | ind n ih =>
      subst hn
      have hfind := find?_call_seam hp ht hb hc
      rw [groupsFrom_eq]
      simp only [Cursor.embed, Nat.zero_add, hfind]
      rcases groupsFrom_cases h with ⟨hfound, rfl⟩ |
        ⟨next, name, variants, rest, hfound, hread, hshorter, hvariants, hrest, rfl⟩
      · have hid : (groupsFrom o (byteLength a + byteLength b) ⟨byteLength a, b⟩).map ([] ++ ·) =
            groupsFrom o (byteLength a + byteLength b) ⟨byteLength a, b⟩ := by
          cases groupsFrom o (byteLength a + byteLength b) ⟨byteLength a, b⟩ <;> rfl
        rw [hid, groupsFrom_eq o _ ⟨byteLength a, b⟩, hfound]
      · obtain ⟨hargs, -⟩ := CallPattern.first_of_find? hc hfound
        have hname := Literal.in_of_read? hargs hread
        have hsame := hname.offset_add
        obtain ⟨after, hstop, -⟩ := @windowStop_in o a name.stop hname
        have hend := hstop.offset_le
        have hliteral := @Literal.read?_embed next.args b 0 (.inr ⟨name, hread⟩)
        have hwindow := @variantsFrom_embed o.variantPattern
          (windowStop o (byteLength a) name.stop) name.stop b 0
          (by simp only at hend; omega) (.inr ⟨variants, hvariants⟩)
        rw [Nat.zero_add] at hwindow
        have hgroups := ih _ hshorter hname hrest rfl
        simp only [hfound, CallMatch.embed, hliteral, hread, Except.map, mapError_ok,
          Option.map_some, Literal.embed, windowStop_seam hp ht hb hname, hwindow, hvariants,
          hgroups]
        cases groupsFrom o (byteLength a + byteLength b) ⟨byteLength a, b⟩ <;> rfl

end Seam

/-- The name of the grouping call is a word: not empty, without white space and parentheses. -/
def Options.WordCall (o : Options) : Prop :=
  o.groupCall ≠ "" ∧ ∀ c ∈ o.groupCall.toList, Text.isWhiteSpace c = false ∧ c ≠ '('

theorem Options.WordCall.plain {o : Options} (h : o.WordCall) : o.groupPattern.Plain := by
  refine ⟨?_, fun c hc => (h.2 c hc).1, fun hc => (h.2 '(' hc).2 rfl⟩
  intro hnil
  apply h.1
  apply String.toList_injective
  exact hnil

theorem Options.Admits.left {o : Options} {a b : String} (h : o.Admits (a ++ b)) : o.Admits a := by
  intro limit hlimit
  have := h limit hlimit
  rw [String.utf8ByteSize_append] at this
  omega

theorem Options.Admits.right {o : Options} {a b : String} (h : o.Admits (a ++ b)) :
    o.Admits b := by
  intro limit hlimit
  have := h limit hlimit
  rw [String.utf8ByteSize_append] at this
  omega

theorem scanUnlimited_append {o : Options} {a b : String} {ga : List Story.Group}
    (hp : o.groupPattern.Plain) (hcall : ∃ args, o.groupPattern.Occurs b.toList 0 args)
    (ha : scanUnlimited o a = .ok ga) :
    scanUnlimited o (a ++ b) =
      ((scanUnlimited o b).mapError (Error.shift a.utf8ByteSize)).map (ga ++ ·) := by
  obtain ⟨args, t, ht, hslice⟩ := hcall
  obtain ⟨d, ⟨hb, -⟩, -⟩ := (Cursor.In.start b.toList).reads_of_slice hslice
  have hwhole : Cursor.mk 0 (a ++ b).toList = Cursor.embed 0 b.toList ⟨0, a.toList⟩ := by
    simp [Cursor.embed]
  have hpart : Cursor.mk (byteLength a.toList) b.toList =
      Cursor.embed (byteLength a.toList) [] ⟨0, b.toList⟩ := by
    simp [Cursor.embed]
  rw [scanUnlimited_eq] at ha
  rw [scanUnlimited_eq, scanUnlimited_eq, hwhole, String.toList_append, Text.byteLength_append,
    groupsFrom_seam hp ht hb (Cursor.In.start a.toList) ha, hpart,
    groupsFrom_shift (Cursor.In.start b.toList), Text.byteLength_toList a]

/-- At the start of a grouping call a text may be cut: its scan is the scan of the first part
followed by that of the second, an error of which is reported further on by the length of the
first part. -/
theorem scan_append_of_call {o : Options} {a b : String} {ga : List Story.Group}
    (hname : o.WordCall) (hlimit : o.Admits (a ++ b))
    (hcall : ∃ args, o.groupPattern.Occurs b.toList 0 args) (ha : scan o a = .ok ga) :
    (∀ gb, scan o b = .ok gb → scan o (a ++ b) = .ok (ga ++ gb)) ∧
      ∀ e, scan o b = .error e → scan o (a ++ b) = .error (e.shift a.utf8ByteSize) := by
  rw [scan_eq_scanUnlimited hlimit.left] at ha
  rw [scan_eq_scanUnlimited hlimit, scan_eq_scanUnlimited hlimit.right,
    scanUnlimited_append hname.plain hcall ha]
  constructor
  · intro gb hb
    rw [hb]
    rfl
  · intro e hb
    rw [hb]
    rfl

theorem scan_append_back_to_back :
    scan {} ("storiesOf('A').add('One', fn); " ++ "storiesOf('B').add('Two', fn)") =
        .ok [⟨"A", ["One"]⟩, ⟨"B", ["Two"]⟩] ∧
      scan {} ("storiesOf('A').add('One', fn); " ++ "storiesOf('B').add(two, fn)") =
        .error (.malformedLiteral 50 't') := by
  have hall : "storiesOf".toList.all (fun c => !Text.isWhiteSpace c && c != '(') = true := by
    decide
  have hname : Options.WordCall {} := by
    refine ⟨by decide, ?_⟩
    intro c hc
    simpa using List.all_eq_true.mp hall c hc
  have ha : scan {} "storiesOf('A').add('One', fn); " = .ok [⟨"A", ["One"]⟩] := by
    with_unfolding_all rfl
  constructor
  · refine (scan_append_of_call hname ?_ ?_ ha).1 [⟨"B", ["Two"]⟩] (by with_unfolding_all rfl)
    · rintro limit ⟨⟩
      decide
    · exact ⟨10, "storiesOf(".toList, ⟨[], by simp, rfl⟩, [], "'B').add('Two', fn)".toList,
        by decide, rfl, rfl⟩
  · refine (scan_append_of_call hname ?_ ?_ ha).2 (.malformedLiteral 19 't')
      (by with_unfolding_all rfl)
    · rintro limit ⟨⟩
      decide
    · exact ⟨10, "storiesOf(".toList, ⟨[], by simp, rfl⟩, [], "'B').add(two, fn)".toList,
        by decide, rfl, rfl⟩

end Docset.Scan
