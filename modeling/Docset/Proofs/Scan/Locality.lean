import Docset.Proofs.Scan.Segmentation

/-!
# What a step of a scan looks at

Every step looks at a stretch of the text and reports offsets. If the stretch is put into
a longer text, the step sees the same characters and reports the same offsets, moved by as
many bytes as were put in front; what was put behind is not looked at unless the step ran
into the end.
-/
namespace Docset.Text.Cursor

/-- The same place after `before` more bytes in front and the characters `after` behind. -/
def embed (before : Nat) (after : List Char) (c : Cursor) : Cursor :=
  ⟨before + c.offset, c.rest ++ after⟩

theorem Reads.embed {c d : Cursor} {s : List Char} (h : c.Reads s d) (before : Nat)
    (after : List Char) : (c.embed before after).Reads s (d.embed before after) := by
  refine ⟨?_, ?_⟩
  · simp only [Cursor.embed, h.1, List.append_assoc]
  · simp only [Cursor.embed, h.2, Nat.add_assoc]

/-- What is read in the longer text and ends inside the shorter one is read there too. -/
theorem Reads.of_embed {c d : Cursor} {s after : List Char} {before : Nat}
    (h : (c.embed before after).Reads s d) (hd : d.offset ≤ before + c.offset + byteLength c.rest) :
    ∃ e, c.Reads s e ∧ d = e.embed before after := by
  obtain ⟨hrest, hoffset⟩ := h
  simp only [Cursor.embed] at hrest hoffset
  obtain ⟨t, ht, hafter⟩ := append_le_of_byteLength hrest.symm (by omega)
  refine ⟨⟨c.offset + byteLength s, t⟩, ⟨ht, rfl⟩, ?_⟩
  obtain ⟨offset, rest⟩ := d
  simp only [Cursor.embed, Cursor.mk.injEq]
  exact ⟨by simp only at hoffset; omega, hafter⟩

theorem skip_shift (skipped : Char → Bool) (before offset : Nat) (rest : List Char) :
    skip skipped (before + offset) rest = (skip skipped offset rest).embed before [] := by
  induction rest generalizing offset with
  | nil => rfl
  | cons c rest ih =>
      rw [skip, skip]
      split
      · rw [← ih, Nat.add_assoc]
      · simp only [Cursor.embed, List.append_nil]

end Docset.Text.Cursor

namespace Docset.Scan
open Text (Cursor byteLength)

theorem error_of_matchBrace {stop : Nat} {c : Cursor} {e : Error}
    (h : matchBrace stop c = .error e) : e = .unbalancedBraces c.offset := by
  rw [matchBrace] at h
  split at h
  · cases h
  · cases h
    rfl

theorem mapError_ok {ε ε' α : Type} (f : ε → ε') (a : α) :
    (Except.ok a : Except ε α).mapError f = .ok a := rfl

theorem mapError_error {ε ε' α : Type} (f : ε → ε') (e : ε) :
    (Except.error e : Except ε α).mapError f = .error (f e) := rfl

/-- The same error `k` bytes further on. -/
def Error.shift (k : Nat) : Error → Error
  | malformedLiteral offset found => malformedLiteral (k + offset) found
  | unterminatedLiteral offset => unterminatedLiteral (k + offset)
  | unbalancedBraces offset => unbalancedBraces (k + offset)
  | missingGroupName offset => missingGroupName (k + offset)
  | missingVariantName offset => missingVariantName (k + offset)
  | inputTooLarge length limit => inputTooLarge length limit
  | invalidPattern reason => invalidPattern reason

def CallMatch.embed (before : Nat) (after : List Char) (m : CallMatch) : CallMatch :=
  ⟨before + m.start, m.args.embed before after⟩

def Literal.embed (before : Nat) (after : List Char) (l : Literal) : Literal :=
  ⟨l.value, l.stop.embed before after⟩

def Mark.embed (before : Nat) (after : List Char) : Mark → Mark
  | brace place => brace (place.embed before after)
  | call args => call (args.embed before after)

section Calls
variable {p : CallPattern} {stop offset : Nat} {rest : List Char}

theorem CallPattern.args?_embed {d : Cursor} (h : p.args? offset rest = some d) (before : Nat)
    (after : List Char) :
    p.args? (before + offset) (rest ++ after) = some (d.embed before after) := by
  obtain ⟨s, hs, hread⟩ := args?_eq_some_iff.mp h
  exact args?_eq_some_iff.mpr ⟨s, hs, hread.embed before after⟩

/-- A call of the longer text that is none of the shorter one ends past the shorter one. -/
theorem CallPattern.lt_of_args?_embed {d : Cursor} (h : p.args? offset rest = none) (before : Nat)
    (after : List Char) (h' : p.args? (before + offset) (rest ++ after) = some d) :
    before + offset + byteLength rest < d.offset := by
  apply Nat.lt_of_not_le
  intro hle
  obtain ⟨s, hs, hread⟩ := args?_eq_some_iff.mp h'
  obtain ⟨e, hread', -⟩ := Cursor.Reads.of_embed (c := ⟨offset, rest⟩) hread hle
  rw [args?_eq_some_iff.mpr ⟨s, hs, hread'⟩] at h
  cases h

theorem CallPattern.find?_of_le (h : stop ≤ offset) : p.find? stop offset rest = none := by
  cases rest with
  | nil => rfl
  | cons x rest => rw [find?, if_pos h]

theorem CallPattern.find?_embed (before : Nat) (after : List Char)
    (hstop : stop ≤ offset + byteLength rest) :
    p.find? (before + stop) (before + offset) (rest ++ after) =
      (p.find? stop offset rest).map (CallMatch.embed before after) := by
  induction rest generalizing offset with
  | nil =>
      simp only [Text.byteLength_nil, Nat.add_zero] at hstop
      rw [find?_of_le hstop, find?_of_le (by omega)]
      rfl
  | cons x rest ih =>
      have hnext := @ih (offset + x.utf8Size)
        (by simp only [Text.byteLength_cons] at hstop; omega)
      rw [← Nat.add_assoc] at hnext
      rw [List.cons_append, find?, find?]
      by_cases hdone : stop ≤ offset
      · rw [if_pos hdone, if_pos (by omega)]
        rfl
      · rw [if_neg hdone, if_neg (by omega)]
        cases hargs : p.args? offset (x :: rest) with
        | some d =>
            rw [← List.cons_append, args?_embed hargs before after]
            simp only [Cursor.embed, Nat.add_le_add_iff_left]
            split
            · rfl
            · exact hnext
        | none =>
            cases hargs' : p.args? (before + offset) (x :: (rest ++ after)) with
            | none => exact hnext
            | some d =>
                have := lt_of_args?_embed hargs before after hargs'
                simp only [if_neg (show ¬ d.offset ≤ before + stop by omega)]
                exact hnext

theorem mark?_embed (before : Nat) (after : List Char)
    (hstop : stop ≤ offset + byteLength rest) :
    mark? p (before + stop) (before + offset) (rest ++ after) =
      (mark? p stop offset rest).map (Mark.embed before after) := by
  induction rest generalizing offset with
  | nil =>
      simp only [Text.byteLength_nil, Nat.add_zero] at hstop
      rw [mark?_of_le hstop, mark?_of_le (by omega)]
      rfl
  | cons x rest ih =>
      have hnext := @ih (offset + x.utf8Size)
        (by simp only [Text.byteLength_cons] at hstop; omega)
      rw [← Nat.add_assoc] at hnext
      rw [List.cons_append, mark?, mark?]
      by_cases hdone : stop ≤ offset
      · rw [if_pos hdone, if_pos (by omega)]
        rfl
      · rw [if_neg hdone, if_neg (by omega)]
        by_cases hbrace : x = '{'
        · rw [if_pos hbrace, if_pos hbrace]
          rfl
        · rw [if_neg hbrace, if_neg hbrace]
          cases hargs : p.args? offset (x :: rest) with
          | some d =>
              rw [← List.cons_append, CallPattern.args?_embed hargs before after]
              simp only [Cursor.embed, Nat.add_le_add_iff_left]
              split
              · rfl
              · exact hnext
          | none =>
              cases hargs' : p.args? (before + offset) (x :: (rest ++ after)) with
              | none => exact hnext
              | some d =>
                  have := CallPattern.lt_of_args?_embed hargs before after hargs'
                  simp only [if_neg (show ¬ d.offset ≤ before + stop by omega)]
                  exact hnext

end Calls

theorem Literal.body_shift (quote : Char) (before offset : Nat) (rest seen : List Char) :
    body quote (before + offset) rest seen =
      (body quote offset rest seen).map (Literal.embed before []) := by
  fun_induction body quote offset rest seen with
  | case1 => rfl
  | case2 => rfl
  | case3 offset c rest seen ih =>
      rw [body, ← ih]
      simp only [Nat.add_assoc]
  | case4 offset rest seen hlast hpair =>
      rw [body, if_pos rfl]
      · simp only [Option.map_some, Literal.embed, Cursor.embed, List.append_nil, Nat.add_assoc]
      · exact hlast
      · exact hpair
  | case5 offset c rest seen hlast hpair hquote ih =>
      rw [body, if_neg hquote, ← ih, Nat.add_assoc]
      · exact hlast
      · exact hpair

/-- Reading a literal is the same further on in a text; with more text behind it, it is the same
if a literal was found. -/
theorem Literal.read?_embed {c : Cursor} {after : List Char} (before : Nat)
    (h : after = [] ∨ ∃ l, read? c = .ok (some l)) :
    read? (c.embed before after) =
      ((read? c).map (Option.map (Literal.embed before after))).mapError (Error.shift before) := by
  rcases h with rfl | ⟨l, hread⟩
  · simp only [read?, Cursor.embed, List.append_nil, Cursor.skip_shift]
    rcases Cursor.skip Text.isLayout c.offset c.rest with ⟨offset, rest⟩
    cases rest with
    | nil => rfl
    | cons quote rest =>
        have hbody := body_shift quote before (offset + quote.utf8Size) rest []
        simp only [Nat.add_assoc, hbody]
        split
        · cases body quote (offset + quote.utf8Size) rest [] <;> rfl
        · rfl
  · obtain ⟨layout, w, hlayout, hw, hreads⟩ := read?_eq_ok_some_iff.mp hread
    rw [hread]
    exact read?_eq_ok_some_iff.mpr ⟨layout, w, hlayout, hw, hreads.embed before after⟩

theorem Literal.read?_of_embed {c : Cursor} {after : List Char} {before : Nat} {l : Literal}
    (h : read? (c.embed before after) = .ok (some l))
    (hends : l.stop.offset ≤ before + c.offset + byteLength c.rest) :
    ∃ k, read? c = .ok (some k) ∧ l = k.embed before after := by
  obtain ⟨layout, w, hlayout, hw, hreads⟩ := read?_eq_ok_some_iff.mp h
  obtain ⟨e, hreads', he⟩ := hreads.of_embed hends
  refine ⟨⟨l.value, e⟩, read?_eq_ok_some_iff.mpr ⟨layout, w, hlayout, hw, hreads'⟩, ?_⟩
  rw [Literal.embed, ← he]

theorem matchBrace_embed {stop : Nat} {c : Cursor} {tail : List Char} (hopen : c.rest = '{' :: tail)
    (before : Nat) (after : List Char) (hstop : stop ≤ c.offset + byteLength c.rest) :
    matchBrace (before + stop) (c.embed before after) =
      ((matchBrace stop c).map (Cursor.embed before after)).mapError (Error.shift before) := by
  have hopen' : (c.embed before after).rest = '{' :: (tail ++ after) := by
    simp only [Cursor.embed, hopen, List.cons_append]
  cases hclose : matchBrace stop c with
  | ok d =>
      obtain ⟨w, hw, hread, hends⟩ := (matchBrace_eq_ok_iff hopen).mp hclose
      exact (matchBrace_eq_ok_iff hopen').mpr
        ⟨w, hw, hread.embed before after, by simp only [Cursor.embed]; omega⟩
  | error e =>
      cases hclose' : matchBrace (before + stop) (c.embed before after) with
      | ok d =>
          obtain ⟨w, hw, hread, hends⟩ := (matchBrace_eq_ok_iff hopen').mp hclose'
          obtain ⟨d', hread', rfl⟩ := hread.of_embed (by omega)
          have hends' : d'.offset ≤ stop := by
            simp only [Cursor.embed] at hends
            omega
          rw [(matchBrace_eq_ok_iff hopen).mpr ⟨w, hw, hread', hends'⟩] at hclose
          cases hclose
      | error e' =>
          rw [error_of_matchBrace hclose, error_of_matchBrace hclose']
          rfl

def Mark.place : Mark → Cursor
  | brace place => place
  | call args => args

/-- A mark lies ahead, and where it is a brace there is one. -/
theorem reads_of_mark? {p : CallPattern} {stop : Nat} {c : Cursor} {m : Mark}
    (h : mark? p stop c.offset c.rest = some m) :
    (∃ s, c.Reads s m.place) ∧ (m = .brace m.place → ∃ tail, m.place.rest = '{' :: tail) := by
  obtain ⟨offset, rest⟩ := c
  induction rest generalizing offset with
  | nil => cases h
  | cons x rest ih =>
      have hskip : mark? p stop (offset + x.utf8Size) rest = some m →
          (∃ s, Cursor.Reads ⟨offset, x :: rest⟩ s m.place) ∧
            (m = .brace m.place → ∃ tail, m.place.rest = '{' :: tail) := by
        intro hnext
        obtain ⟨⟨s, hread⟩, hopen⟩ := ih _ hnext
        exact ⟨⟨_, (Cursor.reads_cons offset x rest).append hread⟩, hopen⟩
      rw [mark?] at h
      split at h
      · cases h
      · split at h
        · rename_i hbrace
          subst hbrace
          cases h
          exact ⟨⟨[], Cursor.Reads.refl _⟩, fun _ => ⟨rest, rfl⟩⟩
        · split at h
          · rename_i hargs
            split at h
            · cases h
              obtain ⟨s, -, hread⟩ := CallPattern.args?_eq_some_iff.mp hargs
              exact ⟨⟨s, hread⟩, fun hcall => by cases hcall⟩
            · exact hskip h
          · exact hskip h

theorem reads_of_mark?_brace {p : CallPattern} {stop : Nat} {c place : Cursor}
    (h : mark? p stop c.offset c.rest = some (.brace place)) :
    ∃ s tail, c.Reads s place ∧ place.rest = '{' :: tail := by
  obtain ⟨⟨s, hread⟩, hopen⟩ := reads_of_mark? h
  obtain ⟨tail, htail⟩ := hopen rfl
  exact ⟨s, tail, hread, htail⟩

theorem reads_of_mark?_call {p : CallPattern} {stop : Nat} {c args : Cursor}
    (h : mark? p stop c.offset c.rest = some (.call args)) : ∃ s, c.Reads s args :=
  (reads_of_mark? h).1

theorem CallPattern.reads_of_find? {p : CallPattern} {stop : Nat} {c : Cursor} {m : CallMatch}
    (h : p.find? stop c.offset c.rest = some m) : ∃ s, c.Reads s m.args := by
  obtain ⟨offset, rest⟩ := c
  induction rest generalizing offset with
  | nil => cases h
  | cons x rest ih =>
      have hskip : p.find? stop (offset + x.utf8Size) rest = some m →
          ∃ s, Cursor.Reads ⟨offset, x :: rest⟩ s m.args := by
        intro hnext
        obtain ⟨s, hread⟩ := ih _ hnext
        exact ⟨_, (Cursor.reads_cons offset x rest).append hread⟩
      rw [find?] at h
      split at h
      · cases h
      · split at h
        · rename_i hargs
          split at h
          · cases h
            obtain ⟨s, -, hread⟩ := args?_eq_some_iff.mp hargs
            exact ⟨s, hread⟩
          · exact hskip h
        · exact hskip h

/-- The loop over a window sees only the window and the literals that start in it. -/
theorem variantsFrom_embed {p : CallPattern} {stop : Nat} {c : Cursor} {after : List Char}
    (before : Nat) (hstop : stop ≤ c.offset + byteLength c.rest)
    (h : after = [] ∨ ∃ vs, variantsFrom p stop c = .ok vs) :
    variantsFrom p (before + stop) (c.embed before after) =
      (variantsFrom p stop c).mapError (Error.shift before) := by
  induction hn : c.rest.length using Nat.strongRecOn generalizing c with
  | ind n ih =>
      subst hn
      have hmark := @mark?_embed p stop c.offset c.rest before after hstop
      rw [variantsFrom_eq] at h
      rw [variantsFrom_eq, variantsFrom_eq p stop c]
      simp only [Cursor.embed, hmark]
      cases hfound : mark? p stop c.offset c.rest with
      | none => rfl
      | some mark =>
          rw [hfound] at h
          cases mark with
          | brace place =>
              obtain ⟨s, tail, hread, hopen⟩ := reads_of_mark?_brace hfound
              have hsame := hread.offset_add
              have hclose := @matchBrace_embed stop place tail hopen before after (by omega)
              simp only [Option.map_some, Mark.embed, hclose]
              cases hnext : matchBrace stop place with
              | error e => rfl
              | ok next =>
                  obtain ⟨w, -, hread', -⟩ := (matchBrace_eq_ok_iff hopen).mp hnext
                  have hsame' := hread'.offset_add
                  have hshorter := Nat.lt_of_lt_of_le (matchBrace_length_lt hnext)
                    (mark?_brace_length_le hfound)
                  simp only [hnext] at h
                  exact ih _ hshorter (by omega) h rfl
          | call args =>
              obtain ⟨s, hread⟩ := reads_of_mark?_call hfound
              have hsame := hread.offset_add
              -- a loop that succeeds has read a literal here
              have hfits : after = [] ∨ ∃ l, Literal.read? args = .ok (some l) := by
                rcases h with h | ⟨vs, h⟩
                · exact .inl h
                · simp only at h
                  split at h
                  · cases h
                  · cases h
                  · rename_i literal hnext
                    exact .inr ⟨literal, hnext⟩
              have hliteral := @Literal.read?_embed args after before hfits
              simp only [Option.map_some, Mark.embed, hliteral]
              cases hnext : Literal.read? args with
              | error e => rfl
              | ok found =>
                  cases found with
                  | none => rfl
                  | some literal =>
                      obtain ⟨layout, w, -, -, hread'⟩ := Literal.read?_eq_ok_some_iff.mp hnext
                      have hsame' := hread'.offset_add
                      have hshorter := Nat.lt_trans (Literal.read?_length_lt hnext)
                        (mark?_call_length_lt hfound)
                      simp only [hnext] at h
                      simp only [Except.map, mapError_ok, Option.map_some, Literal.embed]
                      by_cases hempty : literal.value.isEmpty = true
                      · rw [if_pos hempty, if_pos hempty]
                        rfl
                      · rw [if_neg hempty] at h
                        rw [if_neg hempty, if_neg hempty]
                        have hrest := ih _ hshorter (by omega) (by
                          rcases h with h | ⟨vs, h⟩
                          · exact .inl h
                          · cases hvs : variantsFrom p stop literal.stop with
                            | error e =>
                                rw [hvs] at h
                                cases h
                            | ok ws => exact .inr ⟨ws, rfl⟩) rfl
                        rw [hrest]
                        cases variantsFrom p stop literal.stop <;> rfl

end Docset.Scan
