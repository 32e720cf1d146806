import Docset.Proofs.Scan.Call
import Docset.Proofs.Scan.Region
import Docset.Proofs.Text.Boundary
import Docset.Scan.Module

/-!
# What is found in a window of a text

A window is delimited by two byte offsets that are boundaries of the text. The functions
that search one take the text and both offsets; here they are tied to the searches by
cursor, and what they find is said of the text and the offsets alone.

The search for a call stops reading at the end of its window, and could for that reason
miss a call or find another one than a search of the whole text that drops what ends too
late. It does neither: a call that starts later does not end earlier, so once the first
call does not fit, none does. The search for the end of a region accepts exactly the words
of the grammar, and no region has another one as a proper beginning.
-/
namespace Docset.Scan
open Text (Cursor Slice Boundary byteLength)

section Offsets
variable {text : String} {c d : Cursor}

theorem findIn?_of_in (p : CallPattern) (hc : c.In text.toList) (hd : d.In text.toList)
    (h : c.offset ≤ d.offset) :
    p.findIn? text c.offset d.offset = .ok (p.find? d.offset c.offset c.rest) := by
  rw [CallPattern.findIn?, hd.at?]
  simp only [bind, Except.bind]
  rw [if_neg (by omega), hc.seekUp?]
  rfl

theorem in_end (text : String) : Cursor.In ⟨text.utf8ByteSize, []⟩ text.toList :=
  ⟨text.toList, by simp, (Text.byteLength_toList text).symm⟩

theorem offset_le_utf8ByteSize (hc : c.In text.toList) : c.offset ≤ text.utf8ByteSize := by
  rw [← Text.byteLength_toList]
  exact hc.offset_le

theorem locateGroup_of_in (o : Options) (hc : c.In text.toList) :
    locateGroup o text c.offset =
      .ok (o.groupPattern.find? (byteLength text.toList) c.offset c.rest) := by
  rw [Text.byteLength_toList]
  exact findIn?_of_in o.groupPattern hc (in_end text) (offset_le_utf8ByteSize hc)

theorem readAt_of_in (hc : c.In text.toList) :
    (Cursor.at? text c.offset).map Literal.read? = .ok (Literal.read? c) := by
  rw [hc.at?]
  rfl

theorem markIn?_of_in (p : CallPattern) (hc : c.In text.toList) (hd : d.In text.toList)
    (h : c.offset ≤ d.offset) :
    markIn? p text c.offset d.offset = .ok (mark? p d.offset c.offset c.rest) := by
  rw [markIn?, hc.between? hd h]
  rfl

theorem matchBraceIn_of_in (hc : c.In text.toList) (hd : d.In text.toList)
    (h : c.offset ≤ d.offset) :
    matchBraceIn text c.offset d.offset = .ok (matchBrace d.offset c) := by
  rw [matchBraceIn, hc.between? hd h]
  rfl

end Offsets

/-! ## Calls -/

namespace CallPattern
variable {p : CallPattern} {cs : List Char} {i j a b stop : Nat}

theorem Occurs.exists_blank (h : p.Occurs cs i a) :
    ∃ blank, (∀ x ∈ blank, Text.isWhiteSpace x = true) ∧
      Slice cs (i + byteLength p.lead) (a - 1) blank ∧ Slice cs (a - 1) a ['('] := by
  obtain ⟨s, ⟨blank, hblank, rfl⟩, before, after, rfl, rfl, rfl⟩ := h
  have hparen : byteLength ['('] = 1 := rfl
  refine ⟨blank, hblank, ⟨before ++ p.lead, '(' :: after, by simp, by simp, ?_⟩,
    before ++ (p.lead ++ blank), after, by simp, ?_, ?_⟩
  all_goals
    simp only [Text.byteLength_append, hparen]
    omega

/-- A call that starts later does not end earlier, though the two may end together. -/
theorem Occurs.args_le (h : p.Occurs cs i a) (h' : p.Occurs cs j b) (hij : i ≤ j) : a ≤ b := by
  obtain ⟨blank, hblank, hslice, -⟩ := h.exists_blank
  obtain ⟨blank', -, ⟨-, -, -, -, hend⟩, hparen⟩ := h'.exists_blank
  have hb := h'.lt
  -- Otherwise the parenthesis of the later call is among the white space of the earlier one.
  apply Nat.le_of_not_lt
  intro hlt
  have hmem : '(' ∈ blank := hslice.mem_of_le hparen (by omega) (by omega)
  exact absurd (hblank '(' hmem) (by decide)

theorem First.of_fits (h : p.First cs (byteLength cs) i j a) (ha : a ≤ stop) :
    p.First cs stop i j a := by
  refine ⟨h.1, h.2.1, ha, ?_⟩
  intro k b hik hkj hoccurs
  have := h.2.2.2 k b hik hkj hoccurs
  have := hoccurs.le_byteLength
  omega

theorem First.noneIn (h : p.First cs (byteLength cs) i j a) (ha : stop < a) (k : Nat) :
    p.NoneIn cs stop i k := by
  intro l b hil hlk hoccurs
  rcases Nat.lt_or_ge l j with hlt | hge
  · have := h.2.2.2 l b hil hlt hoccurs
    have := hoccurs.le_byteLength
    omega
  · have := h.2.1.args_le hoccurs hge
    omega

/-- Searching a window is searching the whole text and dropping what ends too late. -/
theorem find?_eq_filter {c : Cursor} (hc : c.In cs) :
    p.find? stop c.offset c.rest =
      (p.find? (byteLength cs) c.offset c.rest).filter (fun m => m.args.offset ≤ stop) := by
  cases hfind : p.find? (byteLength cs) c.offset c.rest with
  | none =>
      rw [Option.filter_none, find?_eq_none_iff hc]
      intro j k a hk hkj hoccurs
      have := noneIn_of_find? hc hfind j k a hk hkj hoccurs
      have := hoccurs.le_byteLength
      omega
  | some m =>
      obtain ⟨hin, hfirst⟩ := first_of_find? hc hfind
      by_cases hfits : m.args.offset ≤ stop
      · rw [Option.filter_some_pos (by simpa using hfits), find?_eq_some_iff hc]
        exact ⟨hin, hfirst.of_fits hfits⟩
      · rw [Option.filter_some_neg (by simpa using hfits), find?_eq_none_iff hc]
        exact hfirst.noneIn (Nat.lt_of_not_le hfits)

theorem noneIn_iff : (∀ k, p.NoneIn cs stop i k) ↔ ¬ ∃ j a, i ≤ j ∧ p.Occurs cs j a ∧ a ≤ stop := by
  constructor
  · rintro h ⟨j, a, hij, hoccurs, ha⟩
    have := h (j + 1) j a hij (Nat.lt_succ_self j) hoccurs
    omega
  · intro h k j a hij _ hoccurs
    apply Nat.lt_of_not_le
    intro ha
    exact h ⟨j, a, hij, hoccurs, ha⟩

/-- The search for a call in a window finds the call that starts first among those that end inside
the window, and nothing only if there is none. This holds of every pattern, a function or a method
of any name. Where a call starts settles where its arguments start, and they never start earlier
for a call that starts later; so a window is searched as the whole text is, up to dropping what
ends too late. -/
theorem findIn?_leftmost_in_window (p : CallPattern) (text : String) (start stop : Nat)
    (hstart : Boundary text.toList start) (hstop : Boundary text.toList stop)
    (hle : start ≤ stop) :
    (∀ m : CallMatch, p.findIn? text start stop = .ok (some m) ↔
      m.args.In text.toList ∧ p.First text.toList stop start m.start m.args.offset) ∧
    (p.findIn? text start stop = .ok none ↔
      ¬ ∃ j a, start ≤ j ∧ p.Occurs text.toList j a ∧ a ≤ stop) ∧
    (∀ i a b, p.Occurs text.toList i a → p.Occurs text.toList i b → a = b) ∧
    (∀ i j a b, p.Occurs text.toList i a → p.Occurs text.toList j b → i ≤ j → a ≤ b) ∧
    p.findIn? text start stop =
      (p.findIn? text start text.utf8ByteSize).map
        (Option.filter fun m => m.args.offset ≤ stop) := by
  obtain ⟨c, hc, rfl⟩ := hstart
  obtain ⟨d, hd, rfl⟩ := hstop
  rw [findIn?_of_in p hc hd hle, findIn?_of_in p hc (in_end text) (offset_le_utf8ByteSize hc)]
  refine ⟨?_, ?_, ?_, ?_, ?_⟩
  · intro m
    rw [Except.ok.injEq, find?_eq_some_iff hc]
  · rw [Except.ok.injEq, find?_eq_none_iff hc, noneIn_iff]
  · intro i a b h h'
    exact h.args_unique h'
  · intro i j a b h h' hij
    exact h.args_le h' hij
  · rw [find?_eq_filter hc, Text.byteLength_toList]
    rfl

/-- Two calls that overlap, the second one with an ideographic space in it: a window that ends
before its parenthesis has neither, as the first one starts too early. -/
theorem findIn?_leftmost_in_window_overlapping :
    (function "((").findIn? "(((\u3000(" 1 6 = .ok none ∧
      (function "((").First "(((\u3000(".toList 7 1 1 7 := by
  have hwhole : (function "((").findIn? "(((\u3000(" 1 7 = .ok (some ⟨1, ⟨7, []⟩⟩) := by
    rfl
  have hsize : "(((\u3000(".utf8ByteSize = 7 := by decide +kernel
  have hin : ∀ n : Fin 6, Boundary "(((\u3000(".toList
      (byteLength ("(((\u3000(".toList.take n)) := by
    intro n
    refine ⟨⟨_, "(((\u3000(".toList.drop n⟩, ⟨_, ?_, rfl⟩, rfl⟩
    exact (List.take_append_drop _ _).symm
  obtain ⟨-, -, -, -, hfilter⟩ := findIn?_leftmost_in_window (function "((") "(((\u3000(" 1 6
    (hin 1) (hin 4) (by decide)
  obtain ⟨hfirst, -, -, -, -⟩ := findIn?_leftmost_in_window (function "((") "(((\u3000(" 1 7
    (hin 1) (hin 5) (by decide)
  refine ⟨?_, ((hfirst _).mp hwhole).2⟩
  rw [hfilter, hsize, hwhole]
  rfl

end CallPattern

/-! ## Regions -/

section Regions
variable {cs : List Char} {i : Nat}

theorem Balanced.end_unique {w w' : List Char} {r r' : Nat} (h : Balanced w) (h' : Balanced w')
    (hw : Slice cs i r w) (hw' : Slice cs i r' w') : r = r' := by
  obtain ⟨c, d, hc, rfl, hread, rfl⟩ := hw.exists_reads
  obtain ⟨d', hread', rfl⟩ := hc.reads_of_slice hw'
  obtain ⟨s, -, rfl⟩ := id h
  have hopen : c.rest = '{' :: (s ++ ['}'] ++ d.rest) := by simpa using hread.1
  -- The matcher with the whole text as its window finds both ends.
  have hmatch := (matchBrace_eq_ok_iff hopen).mpr
    ⟨_, h, hread, (hc.reads hread).offset_le⟩
  have hmatch' := (matchBrace_eq_ok_iff hopen).mpr
    ⟨_, h', hread', (hc.reads hread').offset_le⟩
  rw [hmatch] at hmatch'
  cases hmatch'
  rfl

/-- From byte `i` to byte `r` of the text stands a brace-balanced region. -/
def RegionAt (cs : List Char) (i r : Nat) : Prop := ∃ w, Balanced w ∧ Slice cs i r w

theorem matchBrace_eq_ok_iff_regionAt {c : Cursor} {tail : List Char} {stop r : Nat}
    (hc : c.In cs) (hopen : c.rest = '{' :: tail) :
    (matchBrace stop c).map Cursor.offset = .ok r ↔ r ≤ stop ∧ RegionAt cs c.offset r := by
  constructor
  · intro h
    cases hmatch : matchBrace stop c with
    | error e =>
        rw [hmatch] at h
        cases h
    | ok d =>
        rw [hmatch] at h
        cases h
        obtain ⟨w, hw, hread, hd⟩ := (matchBrace_eq_ok_iff hopen).mp hmatch
        exact ⟨hd, w, hw, hc.slice hread⟩
  · rintro ⟨hr, w, hw, hslice⟩
    obtain ⟨d, hread, rfl⟩ := hc.reads_of_slice hslice
    rw [(matchBrace_eq_ok_iff hopen).mpr ⟨w, hw, hread, hr⟩]
    rfl

theorem matchBrace_eq_error_iff_regionAt {c : Cursor} {tail : List Char} {stop : Nat}
    (hc : c.In cs) (hopen : c.rest = '{' :: tail) :
    matchBrace stop c = .error (.unbalancedBraces c.offset) ↔
      ¬ ∃ r ≤ stop, RegionAt cs c.offset r := by
  constructor
  · rintro h ⟨r, hr, hregion⟩
    have hok := (matchBrace_eq_ok_iff_regionAt hc hopen).mpr ⟨hr, hregion⟩
    rw [h] at hok
    cases hok
  · intro h
    cases hclose : closeBrace stop 0 none c.offset c.rest with
    | none => rw [matchBrace, hclose]
    | some d =>
        have hok : (matchBrace stop c).map Cursor.offset = .ok d.offset := by
          rw [matchBrace, hclose]
          rfl
        exact absurd ⟨d.offset, (matchBrace_eq_ok_iff_regionAt hc hopen).mp hok⟩ h

/-- From an opening brace, the matcher finds the end of a region exactly if one that the grammar
derives stands there and ends inside the window, of which there is at most one; otherwise it
names the brace. -/
theorem matchBraceIn_iff_grammar (text : String) (start stop : Nat) (window : List Char)
    (hopen : Slice text.toList start (start + 1) ['{'])
    (hwindow : Slice text.toList start stop window) :
    (∀ r, (matchBraceIn text start stop).map (Except.map Cursor.offset) = .ok (.ok r) ↔
      r ≤ stop ∧ RegionAt text.toList start r) ∧
    (∀ r r', RegionAt text.toList start r → RegionAt text.toList start r' → r = r') ∧
    (matchBraceIn text start stop = .ok (.error (.unbalancedBraces start)) ↔
      ∀ w, Balanced w → ¬ w <+: window) := by
  obtain ⟨c, d, hc, rfl, hread, rfl⟩ := hwindow.exists_reads
  obtain ⟨e, hbrace, -⟩ := hc.reads_of_slice hopen
  have hle : c.offset ≤ d.offset := by
    rw [hread.2]
    exact Nat.le_add_right _ _
  rw [matchBraceIn_of_in hc (hc.reads hread) hle]
  refine ⟨?_, ?_, ?_⟩
  · intro r
    change Except.ok ((matchBrace d.offset c).map Cursor.offset) = _ ↔ _
    rw [Except.ok.injEq, matchBrace_eq_ok_iff_regionAt hc hbrace.1]
  · rintro r r' ⟨w, hw, hslice⟩ ⟨w', hw', hslice'⟩
    exact hw.end_unique hw' hslice hslice'
  · rw [Except.ok.injEq, matchBrace_eq_error_iff_regionAt hc hbrace.1]
    constructor
    · intro h w hw hbegins
      obtain ⟨r, hr, hslice⟩ := hwindow.begins_iff.mp hbegins
      exact h ⟨r, hr, w, hw, hslice⟩
    · rintro h ⟨r, hr, w, hw, hslice⟩
      exact h w hw (hwindow.begins_iff.mpr ⟨r, hr, hslice⟩)

/-- A call of which the argument is a region. In it a literal holds an escaped quote and behind
that a closing brace. -/
def callOfRegion : String := "f(\x7ba: '\\'\x7d', é: \x7b\x7d\x7d)"

/-- The brace in the literal does not end the region, and a window that ends before the last brace
begins with no region. -/
theorem matchBraceIn_iff_grammar_quoted_brace :
    RegionAt callOfRegion.toList 2 20 ∧
      ∀ w, Balanced w → ¬ w <+: (callOfRegion.toList.drop 2).take 16 := by
  have hopen : Slice callOfRegion.toList 2 3 ['{'] := ⟨['f', '('], _, rfl, rfl, rfl⟩
  obtain ⟨hregion, -, -⟩ := matchBraceIn_iff_grammar callOfRegion 2 21
    (callOfRegion.toList.drop 2) hopen ⟨['f', '('], [], rfl, rfl, rfl⟩
  obtain ⟨-, -, hnone⟩ := matchBraceIn_iff_grammar callOfRegion 2 19
    ((callOfRegion.toList.drop 2).take 16) hopen ⟨['f', '('], ['}', ')'], rfl, rfl, rfl⟩
  exact ⟨((hregion 20).mp rfl).2, hnone.mp rfl⟩

end Regions

end Docset.Scan
