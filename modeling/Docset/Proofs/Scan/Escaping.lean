import Docset.Proofs.Scan.Diagnosis
import Docset.Proofs.Scan.InWindow

/-!
# Which quote ends a literal

Inside a literal a character is escaped if an odd number of backslashes stands right before
it, counted from the opening quote on. This says of every position by itself what the reader
keeps track of as it goes along. The literal ends at the first of its quotes that is not
escaped, and it stands for its contents without the backslashes that escape something.
What can be read at a place is settled by that in every case, and a text with a backslash
before at least its quotes and backslashes is read as the text.
-/
namespace Docset.Scan.Literal
open Text (Cursor byteLength)

def AllEscaped (q : Char) (w : List Char) : Prop :=
  ∀ s t, w = s ++ q :: t → trailingSlashes s % 2 = 1

def unescape : List Char → List Char
  | '\\' :: c :: rest => c :: unescape rest
  | c :: rest => c :: unescape rest
  | [] => []

def escapeMarked (marked : List (Char × Bool)) : List Char :=
  marked.flatMap fun m => if m.2 then ['\\', m.1] else [m.1]

section Contents
variable {q : Char} {w v : List Char}

theorem unescape_of_ne {c : Char} (hc : c ≠ '\\') (w : List Char) :
    unescape (c :: w) = c :: unescape w := by
  rw [unescape]
  rintro d rest rfl
  exact absurd rfl hc

theorem allEscaped_nil : AllEscaped q [] := by
  intro s t h
  simp at h

theorem allEscaped_cons {c : Char} (hq : c ≠ q) (hc : c ≠ '\\') :
    AllEscaped q (c :: w) ↔ AllEscaped q w := by
  constructor
  · intro h s t hw
    rw [← trailingSlashes_cons_of_ne hc]
    exact h (c :: s) t (by rw [hw, List.cons_append])
  · intro h s t hw
    cases s with
    | nil => exact absurd (List.cons.inj hw).1 hq
    | cons d s =>
        obtain ⟨rfl, htail⟩ := List.cons.inj hw
        rw [trailingSlashes_cons_of_ne hc]
        exact h s t htail

theorem allEscaped_escape (hq : q ≠ '\\') (c : Char) :
    AllEscaped q ('\\' :: c :: w) ↔ AllEscaped q w := by
  constructor
  · intro h s t hw
    rw [← trailingSlashes_escape c]
    exact h ('\\' :: c :: s) t (by rw [hw, List.cons_append, List.cons_append])
  · intro h s t hw
    cases s with
    | nil => exact absurd (List.cons.inj hw).1.symm hq
    | cons d s =>
        obtain ⟨rfl, htail⟩ := List.cons.inj hw
        cases s with
        | nil => rfl
        | cons e s =>
            obtain ⟨rfl, hrest⟩ := List.cons.inj htail
            exact (trailingSlashes_escape c s).mpr (h s t hrest)

/-- Contents as the reader takes them are those that end unescaped and have every quote
escaped; they stand for themselves without the escaping backslashes. -/
theorem contents_iff (hq : q ≠ '\\') :
    Contents q w v ↔ AllEscaped q w ∧ trailingSlashes w % 2 = 0 ∧ v = unescape w := by
  constructor
  · intro h
    induction h with
    | nil => exact ⟨allEscaped_nil, rfl, rfl⟩
    | @plain c w v hcq hc hwv ih =>
        obtain ⟨hall, heven, rfl⟩ := ih
        exact ⟨(allEscaped_cons hcq hc).mpr hall, by rwa [trailingSlashes_cons_of_ne hc],
          (unescape_of_ne hc w).symm⟩
    | @escaped c w v hwv ih =>
        obtain ⟨hall, heven, rfl⟩ := ih
        have hodd := trailingSlashes_escape c w
        exact ⟨(allEscaped_escape hq c).mpr hall, by omega, rfl⟩
  · rintro ⟨hall, heven, rfl⟩
    fun_induction unescape w with
    | case1 c rest ih =>
        have hodd := trailingSlashes_escape c rest
        exact .escaped (ih ((allEscaped_escape hq c).mp hall) (by omega))
    | case2 c rest hpair ih =>
        have hc : c ≠ '\\' := by
          rintro rfl
          cases rest with
          | nil => exact absurd heven (by decide)
          | cons d rest => exact hpair d rest rfl rfl
        have hcq : c ≠ q := by
          rintro rfl
          exact absurd (hall [] rest rfl) (by decide)
        rw [trailingSlashes_cons_of_ne hc] at heven
        exact .plain hcq hc (ih ((allEscaped_cons hcq hc).mp hall) heven)
    | case3 => exact .nil

theorem contents_escapeMarked {marked : List (Char × Bool)}
    (h : ∀ m ∈ marked, m.1 = q ∨ m.1 = '\\' → m.2 = true) :
    Contents q (escapeMarked marked) (marked.map Prod.fst) := by
  induction marked with
  | nil => exact .nil
  | cons m marked ih =>
      obtain ⟨c, escaped⟩ := m
      have hrest := ih fun n hn => h n (List.mem_cons_of_mem _ hn)
      cases escaped with
      | true => exact .escaped hrest
      | false =>
          have hc := fun hspecial => h (c, false) List.mem_cons_self hspecial
          exact .plain (fun hcq => by simpa using hc (.inl hcq))
            (fun hslash => by simpa using hc (.inr hslash)) hrest

end Contents

section Reading
variable {q : Char} {offset : Nat} {rest : List Char}

theorem body_eq_none_iff (hq : q ≠ '\\') : body q offset rest [] = none ↔ AllEscaped q rest := by
  constructor
  · intro h s t hrest
    exact odd_of_body hq h hrest
  · intro hall
    cases hbody : body q offset rest [] with
    | none => rfl
    | some l =>
        obtain ⟨w, v, hwv, hread, -⟩ := contents_of_body hbody
        obtain ⟨-, heven, -⟩ := (contents_iff hq).mp hwv
        have hodd := hall w l.stop.rest (by simpa using hread.1)
        omega

theorem body_eq_some_iff (hq : q ≠ '\\') {l : Literal} :
    body q offset rest [] = some l ↔
      ∃ w, AllEscaped q w ∧ trailingSlashes w % 2 = 0 ∧ rest = w ++ q :: l.stop.rest ∧
        l.value = String.ofList (unescape w) ∧
        l.stop.offset = offset + byteLength w + q.utf8Size := by
  constructor
  · intro h
    obtain ⟨w, v, hwv, hread, hvalue⟩ := contents_of_body h
    obtain ⟨hall, heven, rfl⟩ := (contents_iff hq).mp hwv
    have hoffset := hread.2
    simp only [Text.byteLength_append, Text.byteLength_cons, Text.byteLength_nil] at hoffset
    exact ⟨w, hall, heven, by simpa using hread.1, by simpa using hvalue, by omega⟩
  · rintro ⟨w, hall, heven, hrest, hvalue, hoffset⟩
    have hbody := body_of_contents hq ((contents_iff hq).mpr ⟨hall, heven, rfl⟩) offset
      l.stop.rest []
    rw [hrest, hbody]
    obtain ⟨value, place, after⟩ := l
    simp only at hvalue hoffset
    rw [hvalue, hoffset, List.reverse_nil, List.nil_append]

/-- What is read where the layout has been skipped: `rest` stands there, from byte `i` on. -/
structure ReadAs (i : Nat) (rest : List Char) (r : Except Error (Option Literal)) : Prop where
  nothing : r = .ok none ↔ rest = []
  malformed : ∀ j found, r = .error (.malformedLiteral j found) ↔
    j = i ∧ isQuote found = false ∧ ∃ tail, rest = found :: tail
  unterminated : ∀ j, r = .error (.unterminatedLiteral j) ↔
    j = i ∧ ∃ q tail, isQuote q = true ∧ rest = q :: tail ∧ AllEscaped q tail
  literal : ∀ l : Literal, r = .ok (some l) ↔
    ∃ q w, isQuote q = true ∧ rest = q :: (w ++ q :: l.stop.rest) ∧
      AllEscaped q w ∧ trailingSlashes w % 2 = 0 ∧ l.value = String.ofList (unescape w) ∧
      l.stop.offset = i + byteLength (q :: (w ++ [q]))

theorem readAs_nil (i : Nat) : ReadAs i [] (.ok none) := by
  constructor <;> simp

theorem readAs_of_not_isQuote {x : Char} (hx : isQuote x = false) (i : Nat) (tail : List Char) :
    ReadAs i (x :: tail) (.error (.malformedLiteral i x)) where
  nothing := by simp
  malformed j found := by
    constructor
    · intro h
      cases h
      exact ⟨rfl, hx, tail, rfl⟩
    · rintro ⟨rfl, -, tail', hrest⟩
      rw [(List.cons.inj hrest).1]
  unterminated j := by
    constructor
    · intro h
      cases h
    · rintro ⟨-, q, tail', hq, hrest, -⟩
      rw [← (List.cons.inj hrest).1, hx] at hq
      cases hq
  literal l := by
    constructor
    · intro h
      cases h
    · rintro ⟨q, w, hq, hrest, -⟩
      rw [← (List.cons.inj hrest).1, hx] at hq
      cases hq

/-- Behind a quote the literal is read to its end, if it has one. -/
def closing (q : Char) (i : Nat) (tail : List Char) : Except Error (Option Literal) :=
  match body q (i + q.utf8Size) tail [] with
  | some l => .ok (some l)
  | none => .error (.unterminatedLiteral i)

theorem closing_eq_ok_iff {i : Nat} {tail : List Char} {l : Literal} :
    closing q i tail = .ok (some l) ↔ body q (i + q.utf8Size) tail [] = some l := by
  unfold closing
  cases body q (i + q.utf8Size) tail [] with
  | none => simp
  | some found => simp

theorem closing_eq_error_iff {i j : Nat} {tail : List Char} :
    closing q i tail = .error (.unterminatedLiteral j) ↔
      j = i ∧ body q (i + q.utf8Size) tail [] = none := by
  unfold closing
  cases body q (i + q.utf8Size) tail [] with
  | none => simp [eq_comm]
  | some l => simp

theorem readAs_closing (hq : isQuote q = true) (i : Nat) (tail : List Char) :
    ReadAs i (q :: tail) (closing q i tail) where
  nothing := by
    unfold closing
    split <;> simp
  malformed j found := by
    constructor
    · intro h
      unfold closing at h
      split at h <;> cases h
    · rintro ⟨-, hfound, tail', hrest⟩
      rw [← (List.cons.inj hrest).1, hq] at hfound
      cases hfound
  unterminated j := by
    rw [closing_eq_error_iff, body_eq_none_iff (ne_backslash_of_isQuote hq)]
    constructor
    · rintro ⟨rfl, hall⟩
      exact ⟨rfl, q, tail, hq, rfl, hall⟩
    · rintro ⟨rfl, q', tail', -, hrest, hall⟩
      obtain ⟨rfl, rfl⟩ := List.cons.inj hrest
      exact ⟨rfl, hall⟩
  literal l := by
    rw [closing_eq_ok_iff, body_eq_some_iff (ne_backslash_of_isQuote hq)]
    constructor
    · rintro ⟨w, hall, heven, rfl, hvalue, hoffset⟩
      refine ⟨q, w, hq, rfl, hall, heven, hvalue, ?_⟩
      simp only [Text.byteLength_append, Text.byteLength_cons, Text.byteLength_nil]
      omega
    · rintro ⟨q', w, -, hrest, hall, heven, hvalue, hoffset⟩
      obtain ⟨rfl, rfl⟩ := List.cons.inj hrest
      simp only [Text.byteLength_append, Text.byteLength_cons, Text.byteLength_nil] at hoffset
      exact ⟨w, hall, heven, rfl, hvalue, by omega⟩

theorem readAs_read? (c : Cursor) :
    ReadAs (c.offset + byteLength (c.rest.takeWhile Text.isLayout))
      (c.rest.dropWhile Text.isLayout) (read? c) := by
  rw [read?, Cursor.skip_eq]
  cases c.rest.dropWhile Text.isLayout with
  | nil => exact readAs_nil _
  | cons x tail =>
      by_cases hx : isQuote x = true
      · simp only [hx, if_true]
        exact readAs_closing hx _ tail
      · simp only [hx]
        exact readAs_of_not_isQuote (by simpa using hx) _ tail

theorem read?_escapeMarked (hq : isQuote q = true) {layout suffix : List Char}
    (hlayout : ∀ x ∈ layout, Text.isLayout x = true) {marked : List (Char × Bool)}
    (hmarked : ∀ m ∈ marked, m.1 = q ∨ m.1 = '\\' → m.2 = true) {s : String}
    (hs : marked.map Prod.fst = s.toList) :
    read? ⟨offset, layout ++ (q :: (escapeMarked marked ++ [q])) ++ suffix⟩ =
      .ok (some ⟨s, ⟨offset + byteLength (layout ++ (q :: (escapeMarked marked ++ [q]))),
        suffix⟩⟩) := by
  have hcontents := contents_escapeMarked hmarked
  rw [hs] at hcontents
  exact read?_eq_ok_some_iff.mpr ⟨layout, _, hlayout, ⟨q, _, hq, hcontents, rfl⟩, rfl, rfl⟩

end Reading

/-- At every place of a text, behind the longest run of layout: nothing is read at the end of the
text, a character that is no quote is an error, a quote is one if every later quote of its kind is
escaped, and else the literal up to the first that is not is read without its escaping
backslashes. So a text is read back from every literal that has a backslash before at least its
quotes and backslashes, whatever follows. -/
theorem readAt_decodes_literals (text : String) (start : Nat) (rest : List Char)
    (hstart : Cursor.In ⟨start, rest⟩ text.toList) :
    (∃ r, (Cursor.at? text start).map read? = .ok r ∧
      ReadAs (start + byteLength (rest.takeWhile Text.isLayout))
        (rest.dropWhile Text.isLayout) r) ∧
    ∀ (s : String) (q : Char) (layout suffix : List Char) (marked : List (Char × Bool)),
      isQuote q = true → (∀ x ∈ layout, Text.isLayout x = true) →
      marked.map Prod.fst = s.toList → (∀ m ∈ marked, m.1 = q ∨ m.1 = '\\' → m.2 = true) →
      rest = layout ++ (q :: (escapeMarked marked ++ [q])) ++ suffix →
      (Cursor.at? text start).map read? =
        .ok (.ok (some ⟨s, ⟨start + byteLength (layout ++ (q :: (escapeMarked marked ++ [q]))),
          suffix⟩⟩)) := by
  rw [readAt_of_in hstart]
  refine ⟨⟨_, rfl, readAs_read? ⟨start, rest⟩⟩, ?_⟩
  rintro s q layout suffix marked hq hlayout hs hmarked rfl
  rw [read?_escapeMarked hq hlayout hmarked hs]

/-- A literal with escapes that it needs and one that it does not need, before another quote; and
one of which the only other quote is escaped. -/
theorem readAt_decodes_literals_escapes :
    (Cursor.at? "(\t'it\\'s \\é\\\\'')" 1).map read? =
        .ok (.ok (some ⟨"it's é\\", ⟨15, ['\'', ')']⟩⟩)) ∧
      AllEscaped '\'' ['a', '\\', '\''] := by
  constructor
  · obtain ⟨-, hread⟩ := readAt_decodes_literals "(\t'it\\'s \\é\\\\'')" 1
      ("(\t'it\\'s \\é\\\\'')".toList.drop 1) ⟨['('], rfl, rfl⟩
    exact hread "it's é\\" '\'' ['\t'] ['\'', ')']
      [('i', false), ('t', false), ('\'', true), ('s', false), (' ', false), ('é', true),
        ('\\', true)] rfl (by simp [Text.isLayout]) rfl (by simp) rfl
  · obtain ⟨⟨r, hr, hreadAs⟩, -⟩ := readAt_decodes_literals " 'a\\'" 0 " 'a\\'".toList (.start _)
    have hunterminated : r = .error (.unterminatedLiteral 1) := Except.ok.inj (hr.symm.trans rfl)
    obtain ⟨-, q, tail, -, hrest, hall⟩ := (hreadAs.unterminated 1).mp hunterminated
    obtain ⟨rfl, rfl⟩ := List.cons.inj hrest
    exact hall

end Docset.Scan.Literal
