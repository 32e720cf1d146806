import Docset.Proofs.Scan.Call
import Docset.Proofs.Scan.Region
import Docset.Proofs.Scan.Rounds

/-!
# The segmentation a scan finds

A text with groups is cut at its grouping calls, each the first one past the name of the
group before it. From the end of a name to the next grouping call extends a window, and
a window is cut into gaps, brace-balanced regions and variant calls with their names. A
gap holds no opening brace and no start of a variant call that fits into the window. All
this is said of the text and its byte offsets alone; nothing is read, and no order of
reading is prescribed. A scan succeeds exactly if the text has such a segmentation, and
then with its names.
-/
namespace Docset.Scan
open Text (Cursor Slice byteLength)

/-- From byte `i` to byte `j` stands no opening brace and no start of a call that ends by
`stop`. -/
structure Gap (p : CallPattern) (cs : List Char) (stop i j : Nat) : Prop where
  le : i ≤ j
  no_brace : ∀ k, i ≤ k → k < j → ¬ Slice cs k (k + 1) ['{']
  no_call : p.NoneIn cs stop i j

/-- After a gap from byte `i` on, a variant call that ends by `stop` is followed by a literal
that ends at byte `e` and stands for the non-empty name `v`. -/
def VariantAt (p : CallPattern) (cs : List Char) (stop i e : Nat) (v : String) : Prop :=
  ∃ j a, Gap p cs stop i j ∧ p.Occurs cs j a ∧ a ≤ stop ∧ Literal.At cs a e v ∧ v ≠ ""

/-- The text from byte `i` to the end of the window, cut into gaps, regions and variant calls.
A literal that runs past the end of the window is the last one. -/
inductive Window (p : CallPattern) (cs : List Char) (stop : Nat) : Nat → List String → Prop
  | gap {i : Nat} : Gap p cs stop i stop → Window p cs stop i []
  | region {i j k : Nat} {w : List Char} {vs : List String} : Gap p cs stop i j →
      Slice cs j k w → Balanced w → k ≤ stop → Window p cs stop k vs → Window p cs stop i vs
  | variant {i e : Nat} {v : String} {vs : List String} : VariantAt p cs stop i e v → e ≤ stop →
      Window p cs stop e vs → Window p cs stop i (v :: vs)
  | overrun {i e : Nat} {v : String} : VariantAt p cs stop i e v → stop < e →
      Window p cs stop i [v]

/-- The offsets of a group: where its call starts, where the arguments of the call start, and
where its name ends. -/
structure Span where
  start : Nat
  args : Nat
  stop : Nat
  deriving DecidableEq, Repr

/-- The window before further groups ends where the first of them starts. -/
def windowEnd (cs : List Char) : List Span → Nat
  | [] => byteLength cs
  | s :: _ => s.start

/-- From byte `i` on, the text has the groups `gs` at the given offsets and no others. -/
inductive Segmented (o : Options) (cs : List Char) : Nat → List Span → List Story.Group → Prop
  | done {i : Nat} : (∀ j a, i ≤ j → ¬ o.groupPattern.Occurs cs j a) → Segmented o cs i [] []
  | group {i : Nat} {s : Span} {spans : List Span} {name : String} {variants : List String}
      {gs : List Story.Group} :
      o.groupPattern.First cs (byteLength cs) i s.start s.args →
      Literal.At cs s.args s.stop name →
      Window o.variantPattern cs (windowEnd cs spans) s.stop variants →
      Segmented o cs s.stop spans gs →
      Segmented o cs i (s :: spans) (⟨name, variants⟩ :: gs)

section Marks
variable {p : CallPattern} {cs : List Char} {stop : Nat}

theorem Gap.refl (p : CallPattern) (cs : List Char) (stop i : Nat) : Gap p cs stop i i :=
  ⟨Nat.le_refl i, fun k _ _ => by omega, CallPattern.NoneIn.refl p cs stop i⟩

theorem Gap.step {c : Cursor} {x : Char} {rest : List Char} {j : Nat} (hc : c.In cs)
    (hx : c.rest = x :: rest) (hbrace : x ≠ '{')
    (hhere : ∀ d, p.args? c.offset c.rest = some d → stop < d.offset)
    (h : Gap p cs stop (c.offset + x.utf8Size) j) : Gap p cs stop c.offset j := by
  refine ⟨by have := h.le; omega, ?_, CallPattern.NoneIn.step hc hx hhere h.no_call⟩
  intro k hk hkj hslice
  rcases Nat.eq_or_lt_of_le hk with rfl | hlt
  · obtain ⟨d, hread, -⟩ := hc.reads_of_slice hslice
    rw [Cursor.Reads, hx] at hread
    exact hbrace (List.cons.inj hread.1).1
  · obtain ⟨b, -, hb, rfl, -, -⟩ := hslice.exists_reads
    exact h.no_brace b.offset (hc.next_le hb hx hlt) hkj hslice

/-- What stands at the end of the gap that starts at byte `i`. -/
inductive Marked (p : CallPattern) (cs : List Char) (stop i : Nat) : Option Mark → Prop
  | none : Gap p cs stop i stop → Marked p cs stop i none
  | brace {place : Cursor} {tail : List Char} : place.In cs → Gap p cs stop i place.offset →
      place.offset < stop → place.rest = '{' :: tail → Marked p cs stop i (some (.brace place))
  | call {j : Nat} {args : Cursor} : args.In cs → Gap p cs stop i j →
      p.Occurs cs j args.offset → args.offset ≤ stop → Marked p cs stop i (some (.call args))

theorem Marked.step {c : Cursor} {x : Char} {rest : List Char} {m : Option Mark} (hc : c.In cs)
    (hx : c.rest = x :: rest) (hbrace : x ≠ '{')
    (hhere : ∀ d, p.args? c.offset c.rest = some d → stop < d.offset)
    (h : Marked p cs stop (c.offset + x.utf8Size) m) : Marked p cs stop c.offset m := by
  cases h with
  | none hgap => exact .none (hgap.step hc hx hbrace hhere)
  | brace hin hgap hlt hopen => exact .brace hin (hgap.step hc hx hbrace hhere) hlt hopen
  | call hin hgap hoccurs hle => exact .call hin (hgap.step hc hx hbrace hhere) hoccurs hle

/-- The search for a mark finds what ends the gap. The window has to end at a place of the text,
or the search could pass over its end. -/
theorem marked_mark? {c : Cursor} {after : List Char} (hc : c.In cs)
    (hstop : Cursor.In ⟨stop, after⟩ cs) (hle : c.offset ≤ stop) :
    Marked p cs stop c.offset (mark? p stop c.offset c.rest) := by
  obtain ⟨offset, rest⟩ := c
  induction rest generalizing offset with
  | nil =>
      have hend := hc.offset_add
      have hstop' := hstop.offset_le
      simp only [Text.byteLength_nil] at hend hle hstop'
      have hsame : offset = stop := by omega
      rw [mark?, hsame]
      exact .none (Gap.refl p cs stop stop)
  | cons x rest ih =>
      have hread := Cursor.reads_cons offset x rest
      rw [mark?]
      split
      · rename_i hdone
        have hsame : offset = stop := Nat.le_antisymm hle hdone
        subst hsame
        exact .none (Gap.refl p cs offset offset)
      · rename_i hlt
        have hnext := ih (offset + x.utf8Size) (hc.reads hread)
          (hc.next_le hstop rfl (Nat.not_le.mp hlt))
        split
        · rename_i hbrace
          subst hbrace
          exact .brace hc (Gap.refl p cs stop offset) (Nat.not_le.mp hlt) rfl
        · rename_i hbrace
          split
          · rename_i args hargs
            obtain ⟨s, -, hreads⟩ := CallPattern.args?_eq_some_iff.mp hargs
            split
            · rename_i hfits
              exact .call (hc.reads hreads) (Gap.refl p cs stop offset)
                ((CallPattern.occurs_iff hc).mpr ⟨args, hargs, rfl⟩) hfits
            · apply Marked.step hc rfl hbrace _ hnext
              intro d hd
              rw [hargs] at hd
              cases hd
              omega
          · rename_i hargs
            apply Marked.step hc rfl hbrace _ hnext
            intro d hd
            rw [hargs] at hd
            cases hd

theorem Gap.end_unique {i j k : Nat} (h : Gap p cs stop i j) (h' : Gap p cs stop i k)
    (hj : Slice cs j (j + 1) ['{'] ∨ ∃ a, p.Occurs cs j a ∧ a ≤ stop)
    (hk : Slice cs k (k + 1) ['{'] ∨ ∃ a, p.Occurs cs k a ∧ a ≤ stop) : j = k := by
  rcases Nat.lt_trichotomy j k with hlt | heq | hlt
  · rcases hj with hj | ⟨a, hj, ha⟩
    · exact absurd hj (h'.no_brace j h.le hlt)
    · have := h'.no_call j a h.le hlt hj
      omega
  · exact heq
  · rcases hk with hk | ⟨a, hk, ha⟩
    · exact absurd hk (h.no_brace k h'.le hlt)
    · have := h.no_call k a h'.le hlt hk
      omega

theorem Balanced.byteLength_pos {w : List Char} (h : Balanced w) : 0 < byteLength w := by
  obtain ⟨r, -, rfl⟩ := h
  have hsize : '{'.utf8Size = 1 := rfl
  simp only [Text.byteLength_cons, hsize]
  omega

theorem Balanced.slice_brace {w : List Char} {i j : Nat} (h : Balanced w) (hs : Slice cs i j w) :
    Slice cs i (i + 1) ['{'] := by
  obtain ⟨r, -, rfl⟩ := h
  obtain ⟨before, after, rfl, hi, -⟩ := hs
  exact ⟨before, (r ++ ['}']) ++ after, by simp, hi, rfl⟩

theorem slice_brace_of_rest {c : Cursor} {tail : List Char} (hc : c.In cs)
    (h : c.rest = '{' :: tail) : Slice cs c.offset (c.offset + 1) ['{'] :=
  hc.slice (d := ⟨c.offset + 1, tail⟩) ⟨h, rfl⟩

/-- A pattern whose lead does not start with a brace has no call where a brace stands. -/
theorem not_occurs_of_brace (hp : p.lead.head? ≠ some '{') {j a : Nat}
    (hbrace : Slice cs j (j + 1) ['{']) : ¬ p.Occurs cs j a := by
  rintro ⟨s, ⟨blank, hblank, rfl⟩, hslice⟩
  obtain ⟨c, d, hc, rfl, hread, -⟩ := hbrace.exists_reads
  obtain ⟨e, hcall, -⟩ := hc.reads_of_slice hslice
  have hsame : '{' :: d.rest = p.lead ++ (blank ++ ['(']) ++ e.rest := hread.1.symm.trans hcall.1
  cases hlead : p.lead with
  | cons x lead =>
      rw [hlead] at hp hsame
      obtain ⟨rfl, -⟩ := List.cons.inj hsame
      exact hp rfl
  | nil =>
      rw [hlead] at hsame
      cases blank with
      | nil => cases hsame
      | cons x blank =>
          obtain ⟨rfl, -⟩ := List.cons.inj hsame
          have := hblank '{' (by simp)
          revert this
          decide

theorem Marked.unique (hp : p.lead.head? ≠ some '{') {i : Nat} {m m' : Option Mark}
    (h : Marked p cs stop i m) (h' : Marked p cs stop i m') : m = m' := by
  cases h with
  | none hgap =>
      cases h' with
      | none => rfl
      | brace hin hgap' hlt hopen =>
          exact absurd (slice_brace_of_rest hin hopen) (hgap.no_brace _ hgap'.le hlt)
      | call hin hgap' hoccurs hle =>
          have := hoccurs.lt
          have := hgap.no_call _ _ hgap'.le (by omega) hoccurs
          omega
  | brace hin hgap hlt hopen =>
      have hbrace := slice_brace_of_rest hin hopen
      cases h' with
      | none hgap' => exact absurd hbrace (hgap'.no_brace _ hgap.le hlt)
      | brace hin' hgap' hlt' hopen' =>
          rw [hin.ext hin' (hgap.end_unique hgap' (.inl hbrace)
            (.inl (slice_brace_of_rest hin' hopen')))]
      | call hin' hgap' hoccurs hle =>
          have hsame := hgap.end_unique hgap' (.inl hbrace) (.inr ⟨_, hoccurs, hle⟩)
          rw [hsame] at hbrace
          exact absurd hoccurs (not_occurs_of_brace hp hbrace)
  | @call j args hin hgap hoccurs hle =>
      cases h' with
      | none hgap' =>
          have := hoccurs.lt
          have := hgap'.no_call _ _ hgap.le (by omega) hoccurs
          omega
      | brace hin' hgap' hlt' hopen' =>
          have hbrace := slice_brace_of_rest hin' hopen'
          have hsame := hgap.end_unique hgap' (.inr ⟨_, hoccurs, hle⟩) (.inl hbrace)
          rw [← hsame] at hbrace
          exact absurd hoccurs (not_occurs_of_brace hp hbrace)
      | @call j' args' hin' hgap' hoccurs' hle' =>
          have hsame := hgap.end_unique hgap' (.inr ⟨_, hoccurs, hle⟩) (.inr ⟨_, hoccurs', hle'⟩)
          subst hsame
          rw [hin.ext hin' (hoccurs.args_unique hoccurs')]

end Marks

section Windows
variable {p : CallPattern} {cs after : List Char} {stop : Nat}

theorem window_of_variantsFrom (hstop : Cursor.In ⟨stop, after⟩ cs) {c : Cursor}
    {vs : List String} (hc : c.In cs) (hle : c.offset ≤ stop)
    (h : variantsFrom p stop c = .ok vs) : Window p cs stop c.offset vs := by
  induction hn : c.rest.length using Nat.strongRecOn generalizing c vs with
  | ind n ih =>
      subst hn
      have hmarked := marked_mark? (p := p) hc hstop hle
      rcases variantsFrom_cases h with ⟨hmark, rfl⟩ |
        ⟨place, next, hmark, hclose, hshorter, hrest⟩ |
        ⟨args, literal, ws, hmark, hread, hvalue, hshorter, hrest, rfl⟩
      · rw [hmark] at hmarked
        cases hmarked with
        | none hgap => exact .gap hgap
      · rw [hmark] at hmarked
        cases hmarked with
        | brace hin hgap hlt hopen =>
            obtain ⟨w, hw, hreads, hends⟩ := (matchBrace_eq_ok_iff hopen).mp hclose
            exact .region hgap (hin.slice hreads) hw hends
              (ih _ hshorter (hin.reads hreads) hends hrest rfl)
      · rw [hmark] at hmarked
        cases hmarked with
        | call hin hgap hoccurs hfits =>
            have hvariant : VariantAt p cs stop c.offset literal.stop.offset literal.value :=
              ⟨_, _, hgap, hoccurs, hfits, (Literal.at_iff hin).mpr ⟨literal, hread, rfl, rfl⟩,
                hvalue⟩
            by_cases hover : literal.stop.offset ≤ stop
            · exact .variant hvariant hover
                (ih _ hshorter (Literal.in_of_read? hin hread) hover hrest rfl)
            · rw [variantsFrom_eq, mark?_of_le (by omega)] at hrest
              cases hrest
              exact .overrun hvariant (Nat.not_le.mp hover)

/-- The round that meets a variant, read off from where the variant stands. -/
theorem variantsFrom_of_variantAt (hp : p.lead.head? ≠ some '{')
    (hstop : Cursor.In ⟨stop, after⟩ cs) {c : Cursor} (hc : c.In cs) {e : Nat} {v : String}
    (h : VariantAt p cs stop c.offset e v) :
    ∃ d : Cursor, d.In cs ∧ d.offset = e ∧
      variantsFrom p stop c = (variantsFrom p stop d).map (v :: ·) := by
  obtain ⟨j, a, hgap, hoccurs, hfits, hliteral, hv⟩ := h
  have hlt := hoccurs.lt
  have hle := hgap.le
  obtain ⟨b, args, hb, -, hargs, rfl⟩ := hoccurs.exists_in
  obtain ⟨s, -, hreads⟩ := CallPattern.args?_eq_some_iff.mp hargs
  have hin := hb.reads hreads
  obtain ⟨literal, hread, rfl, rfl⟩ := (Literal.at_iff hin).mp hliteral
  have hmark : mark? p stop c.offset c.rest = some (.call args) :=
    (marked_mark? hc hstop (by omega)).unique hp (.call hin hgap hoccurs hfits)
  refine ⟨literal.stop, Literal.in_of_read? hin hread, rfl, ?_⟩
  rw [variantsFrom_eq]
  simp only [hmark, hread]
  rw [if_neg (by simpa using hv)]

theorem variantsFrom_of_window (hp : p.lead.head? ≠ some '{')
    (hstop : Cursor.In ⟨stop, after⟩ cs) {i : Nat} {vs : List String}
    (h : Window p cs stop i vs) {c : Cursor} (hc : c.In cs) (hi : c.offset = i) :
    variantsFrom p stop c = .ok vs := by
  induction h generalizing c with
  | @gap i hgap =>
      subst hi
      rw [variantsFrom_eq, (marked_mark? hc hstop hgap.le).unique hp (.none hgap)]
  | @region i j k w vs hgap hslice hw hends _ ih =>
      subst hi
      have hpos := hw.byteLength_pos
      have hle := hgap.le
      have hbrace := hw.slice_brace hslice
      obtain ⟨place, next, hin, rfl, hread, rfl⟩ := hslice.exists_reads
      have hlt : place.offset < stop := by
        have := hread.2
        omega
      have hopen : ∃ tail, place.rest = '{' :: tail := by
        obtain ⟨r, -, rfl⟩ := hw
        exact ⟨_, hread.1⟩
      obtain ⟨tail, hopen⟩ := hopen
      have hmark : mark? p stop c.offset c.rest = some (.brace place) :=
        (marked_mark? hc hstop (by omega)).unique hp (.brace hin hgap hlt hopen)
      have hclose : matchBrace stop place = .ok next :=
        (matchBrace_eq_ok_iff hopen).mpr ⟨w, hw, hread, hends⟩
      rw [variantsFrom_eq]
      simp only [hmark, hclose]
      exact ih (hin.reads hread) rfl
  | variant hvariant _ _ ih =>
      subst hi
      obtain ⟨d, hd, hoff, heq⟩ := variantsFrom_of_variantAt hp hstop hc hvariant
      rw [heq, ih hd hoff]
      rfl
  | overrun hvariant hover =>
      subst hi
      obtain ⟨d, hd, hoff, heq⟩ := variantsFrom_of_variantAt hp hstop hc hvariant
      rw [heq, variantsFrom_eq, mark?_of_le (by omega)]
      rfl

/-- The loop over a window succeeds exactly with the names of its segmentation. -/
theorem variantsFrom_eq_ok_iff (hp : p.lead.head? ≠ some '{')
    (hstop : Cursor.In ⟨stop, after⟩ cs) {c : Cursor} {vs : List String} (hc : c.In cs)
    (hle : c.offset ≤ stop) :
    variantsFrom p stop c = .ok vs ↔ Window p cs stop c.offset vs :=
  ⟨window_of_variantsFrom hstop hc hle, fun h => variantsFrom_of_window hp hstop h hc rfl⟩

end Windows

section Groups
variable {o : Options} {cs : List Char}

theorem variantPattern_head (o : Options) : o.variantPattern.lead.head? ≠ some '{' := by
  have hhead : o.variantPattern.lead.head? = some '.' := rfl
  rw [hhead]
  decide

theorem windowStop_in {c : Cursor} (hc : c.In cs) :
    ∃ after, Cursor.In ⟨windowStop o (byteLength cs) c, after⟩ cs ∧
      c.offset ≤ windowStop o (byteLength cs) c := by
  rw [windowStop]
  split
  · exact ⟨[], ⟨cs, by simp, rfl⟩, hc.offset_le⟩
  · rename_i m hfind
    obtain ⟨-, hle, hoccurs, -, -⟩ := CallPattern.first_of_find? hc hfind
    obtain ⟨⟨offset, rest⟩, -, hb, rfl, -, -⟩ := hoccurs.exists_in
    exact ⟨rest, hb, hle⟩

theorem windowStop_of_segmented {c : Cursor} (hc : c.In cs) {spans : List Span}
    {gs : List Story.Group} (h : Segmented o cs c.offset spans gs) :
    windowStop o (byteLength cs) c = windowEnd cs spans := by
  cases h with
  | done hnone =>
      rw [windowStop, CallPattern.find?_eq_none_of_not_occurs hc hnone]
      rfl
  | group hfirst =>
      obtain ⟨d, -, -, hfind⟩ := CallPattern.find?_of_first hc hfirst
      rw [windowStop, hfind]
      rfl

theorem segmented_of_groupsFrom {c : Cursor} {gs : List Story.Group} (hc : c.In cs)
    (h : groupsFrom o (byteLength cs) c = .ok gs) :
    ∃ spans, Segmented o cs c.offset spans gs := by
  induction hn : c.rest.length using Nat.strongRecOn generalizing c gs with
  | ind n ih =>
      subst hn
      rcases groupsFrom_cases h with ⟨hfind, rfl⟩ |
        ⟨next, name, variants, rest, hfind, hread, hshorter, hvariants, hrest, rfl⟩
      · refine ⟨[], .done ?_⟩
        intro j a hj hoccurs
        have hnone := CallPattern.noneIn_of_find? hc hfind (j + 1) j a hj (Nat.lt_succ_self j)
          hoccurs
        have hends := hoccurs.le_byteLength
        omega
      · obtain ⟨hargs, hfirst⟩ := CallPattern.first_of_find? hc hfind
        have hname := Literal.in_of_read? hargs hread
        obtain ⟨spans, hspans⟩ := ih _ hshorter hname hrest rfl
        obtain ⟨after, hstop, hle⟩ := @windowStop_in o cs name.stop hname
        have hwindow := window_of_variantsFrom hstop hname hle hvariants
        rw [windowStop_of_segmented hname hspans] at hwindow
        exact ⟨⟨next.start, next.args.offset, name.stop.offset⟩ :: spans,
          .group hfirst ((Literal.at_iff hargs).mpr ⟨name, hread, rfl, rfl⟩) hwindow hspans⟩

theorem groupsFrom_of_segmented {i : Nat} {spans : List Span} {gs : List Story.Group}
    (h : Segmented o cs i spans gs) {c : Cursor} (hc : c.In cs) (hi : c.offset = i) :
    groupsFrom o (byteLength cs) c = .ok gs := by
  induction h generalizing c with
  | @done i hnone =>
      subst hi
      rw [groupsFrom_eq, CallPattern.find?_eq_none_of_not_occurs hc hnone]
  | @group i s spans name variants gs hfirst hname hwindow hspans ih =>
      subst hi
      obtain ⟨args, hin, hargs, hfind⟩ := CallPattern.find?_of_first hc hfirst
      rw [← hargs] at hname
      obtain ⟨literal, hread, hvalue, hend⟩ := (Literal.at_iff hin).mp hname
      have hliteral := Literal.in_of_read? hin hread
      rw [← hend] at hspans hwindow
      obtain ⟨after, hstop, -⟩ := @windowStop_in o cs literal.stop hliteral
      rw [← windowStop_of_segmented hliteral hspans] at hwindow
      have hvariants := variantsFrom_of_window (variantPattern_head o) hstop hwindow hliteral rfl
      rw [groupsFrom_eq]
      simp only [hfind, hread, hvariants, ih hliteral hend, hvalue]
      rfl

end Groups

/-- A scan succeeds exactly if the text is within the limit and has a segmentation, and it
returns the names of that segmentation. -/
theorem scan_eq_ok_iff_segmented (o : Options) (text : String) (gs : List Story.Group) :
    scan o text = .ok gs ↔ o.Admits text ∧ ∃ spans, Segmented o text.toList 0 spans gs := by
  constructor
  · intro h
    have hadmits := admits_of_scan_eq_ok h
    rw [scan_eq_scanUnlimited hadmits, scanUnlimited_eq] at h
    exact ⟨hadmits, segmented_of_groupsFrom (Cursor.In.start text.toList) h⟩
  · rintro ⟨hadmits, spans, hspans⟩
    rw [scan_eq_scanUnlimited hadmits, scanUnlimited_eq]
    exact groupsFrom_of_segmented hspans (Cursor.In.start text.toList) rfl

end Docset.Scan
