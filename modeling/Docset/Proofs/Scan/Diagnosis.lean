import Docset.Proofs.Scan.Locality

/-!
# What the error of a scan says about the text

Every error names an offset, and something is wrong with the text there. What that is,
`Error.Truthful` says of the text alone: a character that is no quote, a literal without
an end, a brace whose region does not end in its window, a call that nothing follows.
The window of a brace is that of the group the scan had come to, which is described by
the segmentation of everything before it. A scan that fails is shown to fail with a
truthful error, from what one round of each loop can fail with.
-/
namespace Docset.Scan
open Text (Cursor Slice byteLength)

/-- Only layout stands from byte `i` to byte `j`. -/
def LayoutIn (cs : List Char) (i j : Nat) : Prop :=
  ∃ layout, (∀ c ∈ layout, Text.isLayout c = true) ∧ Slice cs i j layout

def trailingSlashes (s : List Char) : Nat := (s.reverse.takeWhile (· = '\\')).length

/-- From byte `i` on, every `q` stands behind an odd number of backslashes, so it is escaped. -/
def OnlyEscaped (cs : List Char) (q : Char) (i : Nat) : Prop :=
  ∀ j k s, Slice cs i j s → Slice cs j k [q] → trailingSlashes s % 2 = 1

/-- What `e` says about the argument that is to be read from byte `a` on. -/
def Error.FaultsArgument (cs : List Char) (a : Nat) : Error → Prop
  | malformedLiteral i c => LayoutIn cs a i ∧ Slice cs i (i + c.utf8Size) [c] ∧
      isQuote c = false ∧ Text.isLayout c = false
  | unterminatedLiteral i => ∃ q, isQuote q = true ∧ LayoutIn cs a i ∧
      Slice cs i (i + q.utf8Size) [q] ∧ OnlyEscaped cs q (i + q.utf8Size)
  | _ => False

/-- From byte `i` on no brace-balanced region stands that ends by `stop`, though a brace does. -/
def OpenBrace (cs : List Char) (stop i : Nat) : Prop :=
  Slice cs i (i + 1) ['{'] ∧ ∀ k w, Balanced w → Slice cs i k w → stop < k

/-- Behind a group's name that ends at byte `e`, the next grouping call starts at byte `stop`; if
there is none, the text ends there. -/
def WindowEnds (o : Options) (cs : List Char) (e stop : Nat) : Prop :=
  (∃ a, o.groupPattern.First cs (byteLength cs) e stop a) ∨
    (∀ j a, e ≤ j → ¬ o.groupPattern.Occurs cs j a) ∧ stop = byteLength cs

/-- A search for groups starts at byte `i`: at the start of the text, or where the name of a group
ends whose window is segmented. -/
inductive SearchedFrom (o : Options) (cs : List Char) : Nat → Prop
  | start : SearchedFrom o cs 0
  | group {i stop : Nat} {s : Span} {name : String} {variants : List String} :
      SearchedFrom o cs i → o.groupPattern.First cs (byteLength cs) i s.start s.args →
      Literal.At cs s.args s.stop name → WindowEnds o cs s.stop stop →
      Window o.variantPattern cs stop s.stop variants → SearchedFrom o cs s.stop

/-- The scan comes to a group at the given offsets. -/
def ComesTo (o : Options) (cs : List Char) (s : Span) : Prop :=
  ∃ i name, SearchedFrom o cs i ∧ o.groupPattern.First cs (byteLength cs) i s.start s.args ∧
    Literal.At cs s.args s.stop name

/-- What an error says about the text holds of it. -/
def Error.Truthful (o : Options) (text : String) : Error → Prop
  | malformedLiteral i c => ∃ j a,
      (o.groupPattern.Occurs text.toList j a ∨ o.variantPattern.Occurs text.toList j a) ∧
        (malformedLiteral i c).FaultsArgument text.toList a
  | unterminatedLiteral i => ∃ j a,
      (o.groupPattern.Occurs text.toList j a ∨ o.variantPattern.Occurs text.toList j a) ∧
        (unterminatedLiteral i).FaultsArgument text.toList a
  | unbalancedBraces i => ∃ s stop, ComesTo o text.toList s ∧
      WindowEnds o text.toList s.stop stop ∧ s.stop ≤ i ∧ i < stop ∧ OpenBrace text.toList stop i
  | missingGroupName a => ∃ j, o.groupPattern.Occurs text.toList j a ∧
      LayoutIn text.toList a text.utf8ByteSize
  | missingVariantName a => ∃ j, o.variantPattern.Occurs text.toList j a ∧
      (LayoutIn text.toList a text.utf8ByteSize ∨ ∃ e, Literal.At text.toList a e "")
  | inputTooLarge length limit => length = text.utf8ByteSize ∧ limit < length ∧
      o.maxInputLength.map UInt64.toNat = some limit
  | invalidPattern _ => False

section Arguments

theorem trailingSlashes_cons_of_ne {c : Char} (hc : c ≠ '\\') (s : List Char) :
    trailingSlashes (c :: s) = trailingSlashes s := by
  unfold trailingSlashes
  rw [List.reverse_cons, List.takeWhile_append]
  split
  · rename_i hall
    simp [hc, hall]
  · rfl

/-- Two characters in front, the first one a backslash, do not change whether the number of
backslashes at the end is odd: the second one is a backslash too, or it keeps them apart. -/
theorem trailingSlashes_escape (c : Char) (s : List Char) :
    trailingSlashes ('\\' :: c :: s) % 2 = 1 ↔ trailingSlashes s % 2 = 1 := by
  by_cases hc : c = '\\'
  · subst hc
    unfold trailingSlashes
    rw [List.reverse_cons, List.reverse_cons, List.append_assoc, List.takeWhile_append]
    split
    · rename_i hall
      simp [hall]
    · rfl
  · rw [← trailingSlashes_cons_of_ne hc s]
    unfold trailingSlashes
    rw [List.reverse_cons, List.takeWhile_append]
    split
    · rename_i hall
      -- a run of backslashes does not reach over a character that is none
      have hwhole := (List.takeWhile_prefix (l := (c :: s).reverse) (· = '\\')).eq_of_length hall
      have hslashes := @List.all_takeWhile _ (· = '\\') (c :: s).reverse
      rw [hwhole] at hslashes
      exact absurd (by simpa using (List.all_eq_true.mp hslashes) c (by simp)) hc
    · rfl

theorem odd_of_body {q : Char} (hq : q ≠ '\\') {offset : Nat} {rest seen : List Char}
    (h : Literal.body q offset rest seen = none) {s tail : List Char} (hs : rest = s ++ q :: tail) :
    trailingSlashes s % 2 = 1 := by
  fun_induction Literal.body q offset rest seen generalizing s with
  | case1 => simp at hs
  | case2 =>
      cases s with
      | nil => exact absurd (List.cons.inj hs).1.symm hq
      | cons c s => simp at hs
  | case3 offset c rest seen ih =>
      cases s with
      | nil => exact absurd (List.cons.inj hs).1.symm hq
      | cons d s =>
          obtain ⟨rfl, htail⟩ := List.cons.inj hs
          cases s with
          | nil => rfl
          | cons e s =>
              obtain ⟨rfl, hrest⟩ := List.cons.inj htail
              exact (trailingSlashes_escape c s).mpr (ih h hrest)
  | case4 => cases h
  | case5 offset c rest seen hlast hpair hquote ih =>
      cases s with
      | nil => exact absurd (List.cons.inj hs).1 hquote
      | cons d s =>
          obtain ⟨rfl, hrest⟩ := List.cons.inj hs
          rw [trailingSlashes_cons_of_ne (Literal.ne_backslash hlast hpair)]
          exact ih h hrest

variable {cs : List Char} {c : Cursor}

/-- A literal that is never ended has only escaped quotes of its kind behind it. -/
theorem onlyEscaped_of_body {q : Char} (hq : q ≠ '\\') (hc : c.In cs)
    (h : Literal.body q c.offset c.rest [] = none) : OnlyEscaped cs q c.offset := by
  intro j k s hs hquote
  obtain ⟨d, hread, rfl⟩ := hc.reads_of_slice hs
  obtain ⟨e, hread', -⟩ := (hc.reads hread).reads_of_slice hquote
  have hshape : c.rest = s ++ q :: e.rest := by
    rw [hread.1, hread'.1, List.singleton_append]
  exact odd_of_body hq h hshape

theorem faultsArgument_of_read? (hc : c.In cs) {e : Error} (h : Literal.read? c = .error e) :
    e.FaultsArgument cs c.offset := by
  obtain ⟨layout, hlayout, hskip, hstop⟩ := @Cursor.skip_reads Text.isLayout c.offset c.rest
  rw [Literal.read?] at h
  split at h
  · cases h
  · rename_i offset x rest heq
    rw [heq] at hskip hstop
    have hblank : LayoutIn cs c.offset offset := ⟨layout, hlayout, hc.slice hskip⟩
    have hhere := hc.reads hskip
    have hchar := hhere.slice (Cursor.reads_cons offset x rest)
    split at h
    · rename_i hquote
      split at h
      · cases h
      · rename_i hbody
        cases h
        have hnext := hhere.reads (Cursor.reads_cons offset x rest)
        exact ⟨x, hquote, hblank, hchar,
          onlyEscaped_of_body (Literal.ne_backslash_of_isQuote hquote) hnext hbody⟩
    · rename_i hquote
      cases h
      exact ⟨hblank, hchar, by simpa using hquote, hstop x rest rfl⟩

theorem layoutIn_of_read? (hc : c.In cs) (h : Literal.read? c = .ok none) :
    LayoutIn cs c.offset (byteLength cs) := by
  obtain ⟨layout, hlayout, hskip, -⟩ := @Cursor.skip_reads Text.isLayout c.offset c.rest
  rw [Literal.read?] at h
  split at h
  · rename_i offset heq
    rw [heq] at hskip
    have hend := (hc.reads hskip).offset_add
    simp only [Text.byteLength_nil, Nat.add_zero] at hend
    rw [← hend]
    exact ⟨layout, hlayout, hc.slice hskip⟩
  · split at h
    · split at h <;> cases h
    · cases h

end Arguments

section Windows
variable {p : CallPattern} {cs after : List Char} {stop : Nat}

theorem openBrace_of_matchBrace {c : Cursor} {tail : List Char} (hc : c.In cs)
    (hopen : c.rest = '{' :: tail) {e : Error} (h : matchBrace stop c = .error e) :
    OpenBrace cs stop c.offset := by
  refine ⟨slice_brace_of_rest hc hopen, ?_⟩
  intro k w hw hslice
  apply Nat.lt_of_not_le
  intro hk
  obtain ⟨d, hread, rfl⟩ := hc.reads_of_slice hslice
  rw [(matchBrace_eq_ok_iff hopen).mpr ⟨w, hw, hread, hk⟩] at h
  cases h

/-- What a round over the variants can do if the loop fails: fail itself, or leave that to a
later round. -/
theorem variantsFrom_error_cases {c : Cursor} {e : Error} (h : variantsFrom p stop c = .error e) :
    (∃ place, mark? p stop c.offset c.rest = some (.brace place) ∧
      (matchBrace stop place = .error e ∨
        ∃ next, matchBrace stop place = .ok next ∧ next.rest.length < c.rest.length ∧
          variantsFrom p stop next = .error e)) ∨
    (∃ args, mark? p stop c.offset c.rest = some (.call args) ∧
      (Literal.read? args = .error e ∨
        (Literal.read? args = .ok none ∧ e = .missingVariantName args.offset) ∨
        ∃ literal, Literal.read? args = .ok (some literal) ∧
          literal.stop.rest.length < c.rest.length ∧
          (literal.value = "" ∧ e = .missingVariantName args.offset ∨
            variantsFrom p stop literal.stop = .error e))) := by
  rw [variantsFrom_eq] at h
  split at h
  · cases h
  · rename_i place hmark
    split at h
    · rename_i hclose
      cases h
      exact .inl ⟨place, hmark, .inl hclose⟩
    · rename_i next hclose
      have hshorter := Nat.lt_of_lt_of_le (matchBrace_length_lt hclose)
        (mark?_brace_length_le hmark)
      exact .inl ⟨place, hmark, .inr ⟨next, hclose, hshorter, h⟩⟩
  · rename_i args hmark
    refine .inr ⟨args, hmark, ?_⟩
    split at h
    · rename_i hread
      cases h
      exact .inl hread
    · rename_i hread
      cases h
      exact .inr (.inl ⟨hread, rfl⟩)
    · rename_i literal hread
      have hshorter := Nat.lt_trans (Literal.read?_length_lt hread) (mark?_call_length_lt hmark)
      refine .inr (.inr ⟨literal, hread, hshorter, ?_⟩)
      split at h
      · rename_i hempty
        cases h
        exact .inl ⟨by simpa using hempty, rfl⟩
      · refine .inr ?_
        cases hrest : variantsFrom p stop literal.stop with
        | ok vs =>
            rw [hrest] at h
            cases h
        | error e' =>
            rw [hrest] at h
            cases h
            rfl

/-- What is wrong in a window from byte `i` on: a region, the argument of a variant call, or the
name there. -/
inductive WindowFault (p : CallPattern) (cs : List Char) (stop i : Nat) : Error → Prop
  | brace {k : Nat} : i ≤ k → k < stop → OpenBrace cs stop k →
      WindowFault p cs stop i (.unbalancedBraces k)
  | argument {j a : Nat} {e : Error} : p.Occurs cs j a → e.FaultsArgument cs a →
      WindowFault p cs stop i e
  | noArgument {j a : Nat} : p.Occurs cs j a → LayoutIn cs a (byteLength cs) →
      WindowFault p cs stop i (.missingVariantName a)
  | noName {j a e : Nat} : p.Occurs cs j a → Literal.At cs a e "" →
      WindowFault p cs stop i (.missingVariantName a)

theorem WindowFault.of_le {i j : Nat} {e : Error} (h : WindowFault p cs stop j e) (hij : i ≤ j) :
    WindowFault p cs stop i e := by
  cases h with
  | brace hk hstop hopen => exact .brace (Nat.le_trans hij hk) hstop hopen
  | argument hoccurs hfault => exact .argument hoccurs hfault
  | noArgument hoccurs hlayout => exact .noArgument hoccurs hlayout
  | noName hoccurs hname => exact .noName hoccurs hname

theorem windowFault_of_variantsFrom (hstop : Cursor.In ⟨stop, after⟩ cs) {c : Cursor} {e : Error}
    (hc : c.In cs) (hle : c.offset ≤ stop) (h : variantsFrom p stop c = .error e) :
    WindowFault p cs stop c.offset e := by
  induction hn : c.rest.length using Nat.strongRecOn generalizing c with
  | ind n ih =>
      subst hn
      have hmarked := marked_mark? (p := p) hc hstop hle
      rcases variantsFrom_error_cases h with ⟨place, hmark, hround⟩ | ⟨args, hmark, hround⟩
      · rw [hmark] at hmarked
        cases hmarked with
        | brace hin hgap hlt hopen =>
            rcases hround with hclose | ⟨next, hclose, hshorter, hrest⟩
            · rw [error_of_matchBrace hclose]
              exact .brace hgap.le hlt (openBrace_of_matchBrace hin hopen hclose)
            · obtain ⟨w, -, hread, hends⟩ := (matchBrace_eq_ok_iff hopen).mp hclose
              have hfault := ih _ hshorter (hin.reads hread) hends hrest rfl
              have hahead := hread.2
              have hgap' := hgap.le
              exact hfault.of_le (by omega)
      · rw [hmark] at hmarked
        cases hmarked with
        | call hin hgap hoccurs hfits =>
            rcases hround with hread | ⟨hread, rfl⟩ | ⟨literal, hread, hshorter, hrest⟩
            · exact .argument hoccurs (faultsArgument_of_read? hin hread)
            · exact .noArgument hoccurs (layoutIn_of_read? hin hread)
            · rcases hrest with ⟨hempty, rfl⟩ | hrest
              · exact .noName hoccurs ((Literal.at_iff hin).mpr ⟨literal, hread, hempty, rfl⟩)
              · by_cases hover : literal.stop.offset ≤ stop
                · have hfault := ih _ hshorter (Literal.in_of_read? hin hread) hover hrest rfl
                  obtain ⟨layout, w, -, -, hreads⟩ := Literal.read?_eq_ok_some_iff.mp hread
                  have hahead := hreads.2
                  have hgap' := hgap.le
                  have hcall := hoccurs.lt
                  exact hfault.of_le (by omega)
                · -- past the end of the window the loop ends without an error
                  rw [variantsFrom_eq, mark?_of_le (by omega)] at hrest
                  cases hrest

end Windows

section Groups
variable {o : Options} {cs : List Char}

theorem windowEnds_windowStop {c : Cursor} (hc : c.In cs) :
    WindowEnds o cs c.offset (windowStop o (byteLength cs) c) := by
  rw [windowStop]
  split
  · rename_i hfind
    refine .inr ⟨?_, rfl⟩
    intro j a hj hoccurs
    have hnone := CallPattern.noneIn_of_find? hc hfind (j + 1) j a hj (Nat.lt_succ_self j) hoccurs
    have hends := hoccurs.le_byteLength
    omega
  · rename_i following hfind
    exact .inl ⟨_, (CallPattern.first_of_find? hc hfind).2⟩

theorem groupsFrom_error_cases {length : Nat} {c : Cursor} {e : Error}
    (h : groupsFrom o length c = .error e) :
    ∃ next, o.groupPattern.find? length c.offset c.rest = some next ∧
      (Literal.read? next.args = .error e ∨
        (Literal.read? next.args = .ok none ∧ e = .missingGroupName next.args.offset) ∨
        ∃ name, Literal.read? next.args = .ok (some name) ∧
          name.stop.rest.length < c.rest.length ∧
          (variantsFrom o.variantPattern (windowStop o length name.stop) name.stop = .error e ∨
            ∃ variants,
              variantsFrom o.variantPattern (windowStop o length name.stop) name.stop =
                .ok variants ∧ groupsFrom o length name.stop = .error e)) := by
  rw [groupsFrom_eq] at h
  split at h
  · cases h
  · rename_i next hfind
    refine ⟨next, hfind, ?_⟩
    split at h
    · rename_i hread
      cases h
      exact .inl hread
    · rename_i hread
      cases h
      exact .inr (.inl ⟨hread, rfl⟩)
    · rename_i name hread
      have hshorter := Nat.lt_trans (Literal.read?_length_lt hread)
        (CallPattern.find?_length_lt hfind)
      refine .inr (.inr ⟨name, hread, hshorter, ?_⟩)
      split at h
      · rename_i hvariants
        cases h
        exact .inl hvariants
      · rename_i variants hvariants
        refine .inr ⟨variants, hvariants, ?_⟩
        cases hrest : groupsFrom o length name.stop with
        | ok gs =>
            rw [hrest] at h
            cases h
        | error e' =>
            rw [hrest] at h
            cases h
            rfl

end Groups

section Texts
variable {o : Options} {text : String}

theorem truthful_of_faultsArgument {e : Error} {j a : Nat}
    (hcall : o.groupPattern.Occurs text.toList j a ∨ o.variantPattern.Occurs text.toList j a)
    (h : e.FaultsArgument text.toList a) : e.Truthful o text := by
  cases e with
  | malformedLiteral i c => exact ⟨j, a, hcall, h⟩
  | unterminatedLiteral i => exact ⟨j, a, hcall, h⟩
  | _ => exact h.elim

theorem truthful_of_windowFault {s : Span} {stop : Nat} (hs : ComesTo o text.toList s)
    (hstop : WindowEnds o text.toList s.stop stop) {e : Error}
    (h : WindowFault o.variantPattern text.toList stop s.stop e) : e.Truthful o text := by
  cases h with
  | brace hk hlt hopen => exact ⟨s, stop, hs, hstop, hk, hlt, hopen⟩
  | argument hoccurs hfault => exact truthful_of_faultsArgument (.inr hoccurs) hfault
  | noArgument hoccurs hlayout =>
      rw [Text.byteLength_toList] at hlayout
      exact ⟨_, hoccurs, .inl hlayout⟩
  | noName hoccurs hname => exact ⟨_, hoccurs, .inr ⟨_, hname⟩⟩

theorem truthful_of_groupsFrom {c : Cursor} {e : Error} (hc : c.In text.toList)
    (hfrom : SearchedFrom o text.toList c.offset)
    (h : groupsFrom o (byteLength text.toList) c = .error e) : e.Truthful o text := by
  induction hn : c.rest.length using Nat.strongRecOn generalizing c with
  | ind n ih =>
      subst hn
      obtain ⟨next, hfind, hround⟩ := groupsFrom_error_cases h
      obtain ⟨hargs, hfirst⟩ := CallPattern.first_of_find? hc hfind
      rcases hround with hread | ⟨hread, rfl⟩ | ⟨name, hread, hshorter, hround⟩
      · exact truthful_of_faultsArgument (.inl hfirst.2.1) (faultsArgument_of_read? hargs hread)
      · have hlayout := layoutIn_of_read? hargs hread
        rw [Text.byteLength_toList] at hlayout
        exact ⟨_, hfirst.2.1, hlayout⟩
      · have hname := Literal.in_of_read? hargs hread
        have hat := (Literal.at_iff hargs).mpr ⟨name, hread, rfl, rfl⟩
        have hends := @windowEnds_windowStop o text.toList name.stop hname
        obtain ⟨after, hstop, hle⟩ := @windowStop_in o text.toList name.stop hname
        rcases hround with hvariants | ⟨variants, hvariants, hrest⟩
        · exact truthful_of_windowFault
            (s := ⟨next.start, next.args.offset, name.stop.offset⟩)
            ⟨c.offset, name.value, hfrom, hfirst, hat⟩ hends
            (windowFault_of_variantsFrom hstop hname hle hvariants)
        · have hwindow := window_of_variantsFrom hstop hname hle hvariants
          have hnext : SearchedFrom o text.toList name.stop.offset :=
            .group (s := ⟨next.start, next.args.offset, name.stop.offset⟩) hfrom hfirst hat hends
              hwindow
          exact ih _ hshorter hname hnext hrest rfl

end Texts

/-- What the error of a scan says about the text holds of it. -/
theorem scan_error_truthful {o : Options} {text : String} {e : Error}
    (h : scan o text = .error e) : e.Truthful o text := by
  rw [scan] at h
  split at h
  · exact truthful_of_groupsFrom (Cursor.In.start _) .start h
  · rename_i limit hlimit
    split at h
    · rename_i hlong
      cases h
      refine ⟨rfl, hlong, ?_⟩
      rw [hlimit]
      rfl
    · exact truthful_of_groupsFrom (Cursor.In.start _) .start h

/-- The brace is closed in the text, but only past the grouping call that ends its window. -/
theorem scan_error_truthful_brace_across_groups :
    scan {} "storiesOf('A').add('x', \x7b a: 1, storiesOf('B') \x7d).add('y', fn)" =
        .error (.unbalancedBraces 24) ∧
      (Error.unbalancedBraces 24).Truthful {}
        "storiesOf('A').add('x', \x7b a: 1, storiesOf('B') \x7d).add('y', fn)" := by
  have h : scan {} "storiesOf('A').add('x', \x7b a: 1, storiesOf('B') \x7d).add('y', fn)" =
      .error (.unbalancedBraces 24) := by
    with_unfolding_all rfl
  exact ⟨h, scan_error_truthful h⟩

end Docset.Scan
