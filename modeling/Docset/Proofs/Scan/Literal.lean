import Docset.Proofs.Text.Slice
import Docset.Scan.Literal

/-!
# What a quoted literal stands for

A literal is written between two quotes of one kind. Between them a backslash keeps the
character after it, whatever that is, and every other character but the quote stands for
itself. `Written` says so without reading anything; reading is shown to accept exactly
the written literals and to end just past the closing quote.
-/
namespace Docset.Scan.Literal
open Text (Cursor Slice byteLength)

/-- What stands between two quotes `q`, as written and as read. -/
inductive Contents (q : Char) : List Char → List Char → Prop
  | nil : Contents q [] []
  | plain {c : Char} {w v : List Char} : c ≠ q → c ≠ '\\' → Contents q w v →
      Contents q (c :: w) (c :: v)
  | escaped {c : Char} {w v : List Char} : Contents q w v →
      Contents q ('\\' :: c :: w) (c :: v)

/-- `w` is a literal, quotes included, that stands for `value`. -/
def Written (w : List Char) (value : String) : Prop :=
  ∃ q contents, isQuote q = true ∧ Contents q contents value.toList ∧ w = q :: (contents ++ [q])

/-- From byte `a` to byte `e` of the text stand layout characters and a literal for `value`. -/
def At (cs : List Char) (a e : Nat) (value : String) : Prop :=
  ∃ layout w, (∀ c ∈ layout, Text.isLayout c = true) ∧ Written w value ∧ Slice cs a e (layout ++ w)

theorem isQuote_iff {c : Char} : isQuote c = true ↔ c = '\'' ∨ c = '"' := by
  simp [isQuote]

theorem ne_backslash_of_isQuote {q : Char} (h : isQuote q = true) : q ≠ '\\' := by
  rcases isQuote_iff.mp h with rfl | rfl <;> decide

theorem not_isLayout_of_isQuote {q : Char} (h : isQuote q = true) : Text.isLayout q = false := by
  rcases isQuote_iff.mp h with rfl | rfl <;> decide

theorem reads_escaped (offset : Nat) (c : Char) (rest : List Char) :
    Cursor.Reads ⟨offset, '\\' :: c :: rest⟩ ['\\', c] ⟨offset + 1 + c.utf8Size, rest⟩ := by
  have hslash : '\\'.utf8Size = 1 := rfl
  refine ⟨rfl, ?_⟩
  simp only [Text.byteLength_cons, Text.byteLength_nil, hslash]
  omega

theorem ne_backslash {c : Char} {rest : List Char} (hlast : c = '\\' → rest = [] → False)
    (hpair : ∀ d tail, c = '\\' → rest = d :: tail → False) : c ≠ '\\' := by
  intro hc
  cases rest with
  | nil => exact hlast hc rfl
  | cons d rest => exact hpair d rest hc rfl

theorem contents_of_body {q : Char} {offset : Nat} {rest seen : List Char} {l : Literal}
    (h : body q offset rest seen = some l) :
    ∃ w v, Contents q w v ∧ Cursor.Reads ⟨offset, rest⟩ (w ++ [q]) l.stop ∧
      l.value = String.ofList (seen.reverse ++ v) := by
  fun_induction body q offset rest seen with
  | case1 => cases h
  | case2 => cases h
  | case3 offset c rest seen ih =>
      obtain ⟨w, v, hwv, hread, hvalue⟩ := ih h
      exact ⟨_, _, .escaped hwv, (reads_escaped offset c rest).append hread,
        by simpa using hvalue⟩
  | case4 offset rest seen =>
      cases h
      exact ⟨[], [], .nil, Cursor.reads_cons offset q rest, by simp⟩
  | case5 offset c rest seen hlast hpair hquote ih =>
      obtain ⟨w, v, hwv, hread, hvalue⟩ := ih h
      exact ⟨_, _, .plain hquote (ne_backslash hlast hpair) hwv,
        (Cursor.reads_cons offset c rest).append hread, by simpa using hvalue⟩

theorem body_of_contents {q : Char} (hq : q ≠ '\\') {w v : List Char} (h : Contents q w v)
    (offset : Nat) (rest seen : List Char) :
    body q offset (w ++ (q :: rest)) seen =
      some ⟨String.ofList (seen.reverse ++ v), ⟨offset + byteLength w + q.utf8Size, rest⟩⟩ := by
  induction h generalizing offset seen with
  | nil =>
      rw [List.nil_append, body]
      · simp
      · intro hslash
        exact absurd hslash hq
      · intro c tail hslash
        exact absurd hslash hq
  | @plain c w v hcq hc hwv ih =>
      rw [List.cons_append, body]
      · rw [if_neg hcq, ih]
        simp [Nat.add_assoc]
      · intro hslash
        exact absurd hslash hc
      · intro d tail hslash
        exact absurd hslash hc
  | @escaped c w v hwv ih =>
      have hslash : '\\'.utf8Size = 1 := rfl
      rw [List.cons_append, List.cons_append, body, ih]
      simp [hslash, Nat.add_assoc]

/-- Reading a literal accepts exactly what is written as one, after layout. -/
theorem read?_eq_ok_some_iff {c : Cursor} {l : Literal} :
    read? c = .ok (some l) ↔
      ∃ layout w, (∀ x ∈ layout, Text.isLayout x = true) ∧ Written w l.value ∧
        c.Reads (layout ++ w) l.stop := by
  constructor
  · intro h
    obtain ⟨layout, hlayout, hskip, -⟩ := @Cursor.skip_reads Text.isLayout c.offset c.rest
    rw [read?] at h
    split at h
    · cases h
    · rename_i offset quote rest heq
      rw [heq] at hskip
      split at h
      · rename_i hquote
        split at h
        · rename_i found hbody
          cases h
          obtain ⟨w, v, hwv, hread, hvalue⟩ := contents_of_body hbody
          refine ⟨layout, _, hlayout, ⟨quote, w, hquote, ?_, rfl⟩, ?_⟩
          · rw [hvalue]
            simpa using hwv
          · exact hskip.append ((Cursor.reads_cons offset quote rest).append hread)
        · cases h
      · cases h
  · rintro ⟨layout, w, hlayout, ⟨q, contents, hq, hcontents, rfl⟩, hrest, hoffset⟩
    have hrest' : c.rest = layout ++ (q :: (contents ++ (q :: l.stop.rest))) := by
      rw [hrest]
      simp
    have hskip : Cursor.skip Text.isLayout c.offset c.rest =
        ⟨c.offset + byteLength layout, q :: (contents ++ (q :: l.stop.rest))⟩ := by
      rw [hrest', Cursor.skip_append hlayout, Cursor.skip,
        if_neg (by simp [not_isLayout_of_isQuote hq])]
    have hbody := body_of_contents (ne_backslash_of_isQuote hq) hcontents
      (c.offset + byteLength layout + q.utf8Size) l.stop.rest []
    rw [read?, hskip]
    simp only [hq, if_true, hbody]
    obtain ⟨value, offset, rest⟩ := l
    simp only [List.reverse_nil, List.nil_append, String.ofList_toList, Except.ok.injEq,
      Option.some.injEq, Literal.mk.injEq, Cursor.mk.injEq, true_and, and_true]
    simp only [Text.byteLength_append, Text.byteLength_cons, Text.byteLength_nil] at hoffset
    omega

theorem at_iff {cs : List Char} {c : Cursor} (hc : c.In cs) {e : Nat} {value : String} :
    At cs c.offset e value ↔
      ∃ l : Literal, read? c = .ok (some l) ∧ l.value = value ∧ l.stop.offset = e := by
  constructor
  · rintro ⟨layout, w, hlayout, hw, hslice⟩
    obtain ⟨d, hread, hd⟩ := hc.reads_of_slice hslice
    exact ⟨⟨value, d⟩, read?_eq_ok_some_iff.mpr ⟨layout, w, hlayout, hw, hread⟩, rfl, hd⟩
  · rintro ⟨l, hread, rfl, rfl⟩
    obtain ⟨layout, w, hlayout, hw, hreads⟩ := read?_eq_ok_some_iff.mp hread
    exact ⟨layout, w, hlayout, hw, hc.slice hreads⟩

theorem in_of_read? {cs : List Char} {c : Cursor} {l : Literal} (hc : c.In cs)
    (h : read? c = .ok (some l)) : l.stop.In cs := by
  obtain ⟨layout, w, -, -, hread⟩ := read?_eq_ok_some_iff.mp h
  exact hc.reads hread

end Docset.Scan.Literal
