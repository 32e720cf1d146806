import Docset.Proofs.Scan.Literal
import Docset.Scan.Braces

/-!
# The grammar of brace-balanced regions

A region is an opening brace, an interior and a closing brace. An interior is a run of
plain characters, literals and regions; a brace in a literal is part of the literal. The
brace matcher keeps only a depth and the open quote; what it still has to read at some
depth is described by `Closes`, one interior for every brace that is open. It accepts a
text exactly if a region stands there and ends inside the window.
-/
namespace Docset.Scan
open Text (Cursor Slice byteLength)
open Literal (Contents Written)

/-- What may stand between an opening brace and the brace that closes it. -/
inductive Interior : List Char → Prop
  | nil : Interior []
  | plain {c : Char} {w : List Char} : isQuote c = false → c ≠ '{' → c ≠ '}' → Interior w →
      Interior (c :: w)
  | literal {l w : List Char} {value : String} : Written l value → Interior w → Interior (l ++ w)
  | region {r w : List Char} : Interior r → Interior w → Interior ('{' :: (r ++ ('}' :: w)))

/-- A brace-balanced region, braces included. -/
def Balanced (w : List Char) : Prop := ∃ r, Interior r ∧ w = '{' :: (r ++ ['}'])

/-- What is left to read when `n` braces are open: an interior and a closing brace for each. -/
inductive Closes : Nat → List Char → Prop
  | last {r : List Char} : Interior r → Closes 1 (r ++ ['}'])
  | inner {n : Nat} {r w : List Char} : Interior r → Closes n w → Closes (n + 1) (r ++ ('}' :: w))

namespace Closes

theorem pos {n : Nat} {w : List Char} (h : Closes n w) : 0 < n := by
  cases h with
  | last => exact Nat.one_pos
  | inner => exact Nat.succ_pos _

theorem plain {n : Nat} {w : List Char} (h : Closes n w) {c : Char} (hq : isQuote c = false)
    (ho : c ≠ '{') (hc : c ≠ '}') : Closes n (c :: w) := by
  cases h with
  | last hr => exact .last (.plain hq ho hc hr)
  | inner hr hw => exact .inner (.plain hq ho hc hr) hw

theorem literal {n : Nat} {l w : List Char} {value : String} (h : Closes n w)
    (hl : Written l value) : Closes n (l ++ w) := by
  cases h with
  | last hr =>
      rw [← List.append_assoc]
      exact .last (.literal hl hr)
  | inner hr hw =>
      rw [← List.append_assoc]
      exact .inner (.literal hl hr) hw

/-- A brace that is opened and closed again is a region of the interior around it. -/
theorem opening {n : Nat} {w : List Char} (hn : 0 < n) (h : Closes (n + 1) w) :
    Closes n ('{' :: w) := by
  cases h with
  | last => omega
  | @inner _ r w hr hw =>
      cases hw with
      | @last s hs =>
          have : '{' :: (r ++ ('}' :: (s ++ ['}']))) = '{' :: (r ++ ('}' :: s)) ++ ['}'] := by simp
          rw [this]
          exact .last (.region hr hs)
      | @inner m s w hs hw =>
          have : '{' :: (r ++ ('}' :: (s ++ ('}' :: w)))) =
            '{' :: (r ++ ('}' :: s)) ++ ('}' :: w) := by simp
          rw [this]
          exact .inner (.region hr hs) hw

theorem closing {n : Nat} {w : List Char} (h : Closes n w) : Closes (n + 1) ('}' :: w) :=
  @inner n [] w .nil h

end Closes

/-- What the matcher reads from depth `n` on, if a quote is open the rest of its literal first. -/
def ReadsToClose (n : Nat) (quote : Option Char) (w : List Char) : Prop :=
  match quote with
  | none => Closes n w
  | some q => ∃ contents value rest, Contents q contents value ∧ Closes n rest ∧
      w = contents ++ (q :: rest)

theorem readsToClose_of_closeBrace {stop depth : Nat} {quote : Option Char} {offset : Nat}
    {rest : List Char} {d : Cursor} (hdepth : 0 < depth)
    (h : closeBrace stop depth quote offset rest = some d) :
    ∃ w, ReadsToClose depth quote w ∧ Cursor.Reads ⟨offset, rest⟩ w d ∧ d.offset ≤ stop := by
  fun_induction closeBrace stop depth quote offset rest with
  | case1 => cases h
  | case2 => cases h
  | case3 depth offset rest hstop ih =>
      obtain ⟨w, hw, hread, hd⟩ := ih (by omega) h
      exact ⟨_, Closes.opening hdepth hw, (Cursor.reads_cons _ _ _).append hread, hd⟩
  | case4 offset rest hstop hbrace =>
      cases h
      have hsize : '}'.utf8Size = 1 := rfl
      refine ⟨['}'], Closes.last .nil, Cursor.reads_cons _ _ _, ?_⟩
      simp only [hsize]
      omega
  | case5 depth offset rest hstop hone hbrace ih =>
      obtain ⟨w, hw, hread, hd⟩ := ih (by omega) h
      refine ⟨_, ?_, (Cursor.reads_cons _ _ _).append hread, hd⟩
      have hclosing : Closes (depth - 1 + 1) ('}' :: w) := Closes.closing hw
      rwa [Nat.sub_add_cancel hdepth] at hclosing
  | case6 depth offset c rest hstop hopen hclose hquote ih =>
      obtain ⟨w, ⟨contents, value, after, hcontents, hafter, rfl⟩, hread, hd⟩ := ih hdepth h
      refine ⟨_, ?_, (Cursor.reads_cons _ _ _).append hread, hd⟩
      have hliteral : Written (c :: (contents ++ [c])) (String.ofList value) :=
        ⟨c, contents, hquote, by simpa using hcontents, rfl⟩
      have hcloses := hafter.literal hliteral
      simpa [ReadsToClose] using hcloses
  | case7 depth offset c rest hstop hopen hclose hquote ih =>
      obtain ⟨w, hw, hread, hd⟩ := ih hdepth h
      exact ⟨_, Closes.plain hw (by simpa using hquote) hopen hclose,
        (Cursor.reads_cons _ _ _).append hread, hd⟩
  | case8 => cases h
  | case9 => cases h
  | case10 depth quote offset c rest hstop ih =>
      obtain ⟨w, ⟨contents, value, after, hcontents, hafter, rfl⟩, hread, hd⟩ := ih hdepth h
      exact ⟨_, ⟨_, _, after, .escaped hcontents, hafter, rfl⟩,
        (Literal.reads_escaped offset c rest).append hread, hd⟩
  | case11 => cases h
  | case12 depth offset c rest hlast hpair hstop ih =>
      obtain ⟨w, hw, hread, hd⟩ := ih hdepth h
      exact ⟨_, ⟨[], [], w, .nil, hw, rfl⟩, (Cursor.reads_cons _ _ _).append hread, hd⟩
  | case13 depth quote offset c rest hlast hpair hstop hquote ih =>
      obtain ⟨w, ⟨contents, value, after, hcontents, hafter, rfl⟩, hread, hd⟩ := ih hdepth h
      exact ⟨_, ⟨_, _, after, .plain hquote (Literal.ne_backslash hlast hpair) hcontents, hafter,
        rfl⟩, (Cursor.reads_cons _ _ _).append hread, hd⟩

theorem closeBrace_contents {q : Char} (hq : q ≠ '\\') {contents value : List Char}
    (h : Contents q contents value) {stop : Nat} (n offset : Nat) (rest : List Char)
    (hstop : offset + byteLength contents < stop) :
    closeBrace stop n (some q) offset (contents ++ (q :: rest)) =
      closeBrace stop n none (offset + byteLength contents + q.utf8Size) rest := by
  induction h generalizing offset with
  | nil =>
      simp only [Text.byteLength_nil, Nat.add_zero] at hstop
      rw [List.nil_append, closeBrace]
      · rw [if_neg (by omega), if_pos rfl, Text.byteLength_nil, Nat.add_zero]
      · intro hslash
        exact absurd hslash hq
      · intro c tail hslash
        exact absurd hslash hq
  | @plain c w v hcq hc hwv ih =>
      simp only [Text.byteLength_cons] at hstop
      rw [List.cons_append, closeBrace]
      · rw [if_neg (by omega), if_neg hcq, ih _ (by omega), Text.byteLength_cons,
          Nat.add_assoc offset]
      · intro hslash
        exact absurd hslash hc
      · intro d tail hslash
        exact absurd hslash hc
  | @escaped c w v hwv ih =>
      have hslash : '\\'.utf8Size = 1 := rfl
      simp only [Text.byteLength_cons, hslash] at hstop
      rw [List.cons_append, List.cons_append, closeBrace, if_neg (by omega), ih _ (by omega)]
      simp only [Text.byteLength_cons, hslash, Nat.add_assoc]

theorem closeBrace_interior {r : List Char} (h : Interior r) {stop n : Nat} (hn : 0 < n)
    (offset : Nat) (rest : List Char) (hstop : offset + byteLength r ≤ stop) :
    closeBrace stop n none offset (r ++ rest) =
      closeBrace stop n none (offset + byteLength r) rest := by
  induction h generalizing n offset rest with
  | nil => rfl
  | @plain c w hq ho hc hw ih =>
      have hpos := c.utf8Size_pos
      simp only [Text.byteLength_cons] at hstop
      rw [List.cons_append, closeBrace, if_neg (by omega), if_neg ho, if_neg hc,
        if_neg (by simp [hq]), ih hn _ _ (by omega), Text.byteLength_cons, Nat.add_assoc]
  | @literal l w value hl hw ih =>
      obtain ⟨q, contents, hq, hcontents, rfl⟩ := hl
      have hpos := q.utf8Size_pos
      simp only [Text.byteLength_append, Text.byteLength_cons, Text.byteLength_nil] at hstop
      have hshape : q :: (contents ++ [q]) ++ w ++ rest =
          q :: (contents ++ (q :: (w ++ rest))) := by
        simp
      have hopen : q ≠ '{' := by rcases Literal.isQuote_iff.mp hq with rfl | rfl <;> decide
      have hclose : q ≠ '}' := by rcases Literal.isQuote_iff.mp hq with rfl | rfl <;> decide
      rw [hshape, closeBrace, if_neg (by omega), if_neg hopen, if_neg hclose, if_pos hq,
        closeBrace_contents (Literal.ne_backslash_of_isQuote hq) hcontents _ _ _ (by omega),
        ih hn _ _ (by omega)]
      simp only [Text.byteLength_append, Text.byteLength_cons, Text.byteLength_nil, Nat.add_assoc,
        Nat.add_zero]
  | @region r w hr hw ihr ihw =>
      have hopen : '{'.utf8Size = 1 := rfl
      have hclose : '}'.utf8Size = 1 := rfl
      simp only [Text.byteLength_append, Text.byteLength_cons, hopen, hclose] at hstop
      have hshape : '{' :: (r ++ ('}' :: w)) ++ rest = '{' :: (r ++ ('}' :: (w ++ rest))) := by simp
      rw [hshape, closeBrace, if_neg (by omega), if_pos rfl, ihr (Nat.succ_pos n) _ _ (by omega),
        closeBrace, if_neg (by omega), if_neg (by decide), if_pos rfl, if_neg (by omega),
        Nat.succ_sub_one, ihw hn _ _ (by omega)]
      simp only [Text.byteLength_append, Text.byteLength_cons, Nat.add_assoc]

theorem matchBrace_balanced {w : List Char} (h : Balanced w) {stop offset : Nat}
    (rest : List Char) (hstop : offset + byteLength w ≤ stop) :
    matchBrace stop ⟨offset, w ++ rest⟩ = .ok ⟨offset + byteLength w, rest⟩ := by
  obtain ⟨r, hr, rfl⟩ := h
  have hopen : '{'.utf8Size = 1 := rfl
  have hclose : '}'.utf8Size = 1 := rfl
  simp only [Text.byteLength_append, Text.byteLength_cons, Text.byteLength_nil, hopen, hclose]
    at hstop
  have hshape : '{' :: (r ++ ['}']) ++ rest = '{' :: (r ++ ('}' :: rest)) := by simp
  have hmatch : closeBrace stop 0 none offset ('{' :: (r ++ ['}']) ++ rest) =
      some ⟨offset + byteLength ('{' :: (r ++ ['}'])), rest⟩ := by
    rw [hshape, closeBrace, if_neg (by omega), if_pos rfl,
      closeBrace_interior hr Nat.one_pos _ _ (by omega), closeBrace, if_neg (by omega),
      if_neg (by decide), if_pos rfl, if_pos rfl]
    simp only [Text.byteLength_append, Text.byteLength_cons, Text.byteLength_nil, Nat.add_assoc,
      Nat.add_zero]
  rw [matchBrace, hmatch]

/-- The matcher accepts exactly the regions that end inside the window. -/
theorem matchBrace_eq_ok_iff {stop : Nat} {c d : Cursor} {tail : List Char}
    (hopen : c.rest = '{' :: tail) :
    matchBrace stop c = .ok d ↔ ∃ w, Balanced w ∧ c.Reads w d ∧ d.offset ≤ stop := by
  obtain ⟨offset, rest⟩ := c
  cases hopen
  have hsize : '{'.utf8Size = 1 := rfl
  constructor
  · intro h
    rw [matchBrace] at h
    split at h
    · rename_i found hclose
      cases h
      rw [closeBrace] at hclose
      split at hclose
      · cases hclose
      · rw [if_pos rfl] at hclose
        obtain ⟨w, hw, hread, hd⟩ := readsToClose_of_closeBrace Nat.one_pos hclose
        have hbalanced : Balanced ('{' :: w) := by
          cases hw with
          | last hr => exact ⟨_, hr, rfl⟩
          | inner hr hw => exact absurd hw.pos (Nat.lt_irrefl 0)
        exact ⟨_, hbalanced, (Cursor.reads_cons _ _ _).append hread, hd⟩
    · cases h
  · rintro ⟨w, hw, ⟨hrest, hoffset⟩, hd⟩
    obtain ⟨place, after⟩ := d
    simp only at hrest hoffset hd
    rw [hrest, matchBrace_balanced hw after (by omega), hoffset]

theorem balanced_iff_matchBrace {tail : List Char} :
    Balanced ('{' :: tail) ↔
      matchBrace (byteLength ('{' :: tail)) ⟨0, '{' :: tail⟩ =
        .ok ⟨byteLength ('{' :: tail), []⟩ := by
  rw [matchBrace_eq_ok_iff rfl]
  constructor
  · intro h
    exact ⟨_, h, ⟨by simp, by simp⟩, Nat.le_refl _⟩
  · rintro ⟨w, hw, ⟨hrest, -⟩, -⟩
    simp only [List.append_nil] at hrest
    rwa [hrest]

end Docset.Scan
