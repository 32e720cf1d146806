import Docset.Proofs.Scan.Composition

/-!
# Modules as they are written

A chain is one group as it stands in a module: the grouping call with the group's name, a
variant call for each entry, and a semicolon and a line feed. Names are written as quoted
literals, in either quote, with a backslash in front of that quote and of backslashes. The
second argument of a variant call is any text; what a scan makes of it is up to the text.

Between the names and the arguments stand only fixed pieces, and in none of them a call of
the other kind starts or ends. So a scan of a rendered module goes from piece to piece, and
it finds the groups that were rendered if two things hold of the free pieces: no grouping
call stands in a name of a variant or in an argument, and each argument is passed over as
gaps and balanced regions.
-/
namespace Docset.Scan
open Text (Cursor byteLength)
open Literal (Contents Written)

inductive Quote where
  | single
  | double
  deriving DecidableEq, Repr

def Quote.char : Quote → Char
  | single => '\''
  | double => '"'

theorem Quote.isQuote_char (q : Quote) : isQuote q.char = true := by
  cases q <;> rfl

def escape (quote c : Char) : List Char := if c = quote ∨ c = '\\' then ['\\', c] else [c]

/-- A literal to be written. -/
structure Quoted where
  value : String
  quote : Quote
  deriving DecidableEq, Repr

def Quoted.text (l : Quoted) : List Char :=
  l.quote.char :: (l.value.toList.flatMap (escape l.quote.char) ++ [l.quote.char])

theorem contents_escape (q : Char) (cs : List Char) : Contents q (cs.flatMap (escape q)) cs := by
  induction cs with
  | nil => exact .nil
  | cons c cs ih =>
      rw [List.flatMap_cons, escape]
      split
      · exact .escaped ih
      · rename_i hc
        exact .plain (fun h => hc (.inl h)) (fun h => hc (.inr h)) ih

theorem Quoted.written (l : Quoted) : Written l.text l.value :=
  ⟨l.quote.char, _, l.quote.isQuote_char, contents_escape _ _, rfl⟩

theorem Quoted.read? (l : Quoted) (offset : Nat) (rest : List Char) :
    Literal.read? ⟨offset, l.text ++ rest⟩ =
      .ok (some ⟨l.value, ⟨offset + byteLength l.text, rest⟩⟩) :=
  Literal.read?_eq_ok_some_iff.mpr ⟨[], l.text, by simp, l.written, rfl, rfl⟩

def CallPattern.spelling (p : CallPattern) : List Char := p.lead ++ ['(']

theorem CallPattern.spells_spelling (p : CallPattern) : p.Spells p.spelling := ⟨[], by simp, rfl⟩

def groupCall : CallPattern := Options.groupPattern {}

def variantCall : CallPattern := Options.variantPattern {}

/-- A variant call to be written: the variant's name and the text of the second argument. -/
structure Entry where
  name : Quoted
  argument : List Char
  named : name.value ≠ ""

/-- The variant call of an entry up to its second argument. -/
def Entry.header (e : Entry) : List Char := variantCall.spelling ++ (e.name.text ++ [',', ' '])

def Entry.text (e : Entry) : List Char := e.header ++ (e.argument ++ [')'])

structure Chain where
  name : Quoted
  entries : List Entry

def Chain.header (g : Chain) : List Char := groupCall.spelling ++ g.name.text

/-- What follows the name of a chain. -/
def Chain.tail (g : Chain) : List Char :=
  ')' :: (g.entries.flatMap Entry.text ++ [';', '\n'])

def Chain.text (g : Chain) : List Char := g.header ++ g.tail

def Chain.variants (g : Chain) : List String := g.entries.map fun e => e.name.value

def Chain.group (g : Chain) : Story.Group := ⟨g.name.value, g.variants⟩

def chainsText (m : List Chain) : List Char := m.flatMap Chain.text

def render (m : List Chain) : String := String.ofList (chainsText m)

theorem groupPattern_default : Options.groupPattern {} = groupCall := rfl

theorem groupCall_lead : groupCall.lead = 's' :: "toriesOf".toList := by decide

theorem variantCall_lead : variantCall.lead = '.' :: "add".toList := by decide

example : groupCall.spelling = "storiesOf(".toList := by decide

example : variantCall.spelling = ".add(".toList := by decide

theorem groupCall_plain : groupCall.Plain := by
  have hall : groupCall.lead.all (fun c => !Text.isWhiteSpace c) = true := by decide
  refine ⟨by decide, ?_, by decide⟩
  intro c hc
  simpa using List.all_eq_true.mp hall c hc

theorem groupCall_comma : groupCall.Foreign ',' := ⟨by decide, by decide, by decide⟩

theorem groupCall_paren : groupCall.Foreign ')' := ⟨by decide, by decide, by decide⟩

theorem variantCall_paren : variantCall.Foreign ')' := ⟨by decide, by decide, by decide⟩

theorem Entry.callFree_text (e : Entry) (rest : List Char) :
    groupCall.CallFree (e.text ++ rest) ↔
      (groupCall.CallFree e.name.text ∧ groupCall.CallFree e.argument) ∧
        groupCall.CallFree rest := by
  have hshape : e.text ++ rest =
      variantCall.spelling ++ (e.name.text ++ ([',', ' '] ++ (e.argument ++ ([')'] ++ rest)))) := by
    simp [Entry.text, Entry.header]
  have hadd : 's' ∉ variantCall.spelling := by decide
  have hcomma : 's' ∉ [',', ' '] := by decide
  have hparen : 's' ∉ [')'] := by decide
  have hname : groupCall.Apart e.name.text ([',', ' '] ++ (e.argument ++ ([')'] ++ rest))) :=
    groupCall_comma.apart _ _
  have hargument : groupCall.Apart e.argument ([')'] ++ rest) := groupCall_paren.apart _ _
  rw [hshape, CallPattern.callFree_append (CallPattern.apart_of_not_mem groupCall_lead hadd _),
    CallPattern.callFree_append hname,
    CallPattern.callFree_append (CallPattern.apart_of_not_mem groupCall_lead hcomma _),
    CallPattern.callFree_append hargument,
    CallPattern.callFree_append (CallPattern.apart_of_not_mem groupCall_lead hparen _)]
  have hadd' := CallPattern.callFree_of_not_mem groupCall_lead hadd
  have hcomma' := CallPattern.callFree_of_not_mem groupCall_lead hcomma
  have hparen' := CallPattern.callFree_of_not_mem groupCall_lead hparen
  simp only [hadd', hcomma', hparen', true_and, and_assoc]

theorem Chain.callFree_tail (g : Chain) :
    groupCall.CallFree g.tail ↔
      ∀ e ∈ g.entries, groupCall.CallFree e.name.text ∧ groupCall.CallFree e.argument := by
  have hentries : ∀ es : List Entry,
      groupCall.CallFree (es.flatMap Entry.text ++ [';', '\n']) ↔
        ∀ e ∈ es, groupCall.CallFree e.name.text ∧ groupCall.CallFree e.argument := by
    intro es
    induction es with
    | nil =>
        have hend := CallPattern.callFree_of_not_mem groupCall_lead
          (show 's' ∉ [';', '\n'] by decide)
        simpa using hend
    | cons e es ih =>
        rw [List.flatMap_cons, List.append_assoc, Entry.callFree_text, ih, List.forall_mem_cons]
  have hparen : 's' ∉ [')'] := by decide
  rw [Chain.tail, ← List.singleton_append,
    CallPattern.callFree_append (CallPattern.apart_of_not_mem groupCall_lead hparen _), hentries]
  simp only [CallPattern.callFree_of_not_mem groupCall_lead hparen, true_and]

theorem chainsText_cons (g : Chain) (m : List Chain) :
    chainsText (g :: m) = g.header ++ (g.tail ++ chainsText m) := by
  simp [chainsText, Chain.text]

theorem chainsText_cons_spelling (g : Chain) (m : List Chain) :
    chainsText (g :: m) = groupCall.spelling ++ (g.name.text ++ (g.tail ++ chainsText m)) := by
  rw [chainsText_cons, Chain.header, List.append_assoc]

theorem apart_chainsText (u : List Char) (m : List Chain) :
    groupCall.Apart u (chainsText m) := by
  cases m with
  | nil => exact CallPattern.apart_nil groupCall u
  | cons g m =>
      rw [chainsText_cons_spelling]
      exact groupCall_plain.apart groupCall.spells_spelling u

section Rounds
variable {u : List Char} {m : List Chain} {offset length : Nat}

theorem find?_chainsText (hfree : groupCall.CallFree u)
    (hlength : offset + byteLength (u ++ chainsText m) = length) :
    groupCall.find? length offset (u ++ chainsText m) =
      groupCall.find? length (offset + byteLength u) (chainsText m) := by
  rw [Text.byteLength_append] at hlength
  rw [CallPattern.find?_seam (apart_chainsText u m) (by omega),
    (CallPattern.callFree_iff_find? offset).mp hfree]

theorem find?_chain (g : Chain) (hlength : offset + byteLength (chainsText (g :: m)) = length) :
    groupCall.find? length offset (chainsText (g :: m)) =
      some ⟨offset, ⟨offset + byteLength groupCall.spelling,
        g.name.text ++ (g.tail ++ chainsText m)⟩⟩ := by
  apply CallPattern.find?_spells groupCall.spells_spelling (chainsText_cons_spelling g m)
  rw [chainsText_cons_spelling, Text.byteLength_append] at hlength
  omega

theorem windowStop_chainsText (hfree : groupCall.CallFree u)
    (hlength : offset + byteLength (u ++ chainsText m) = length) :
    windowStop {} length ⟨offset, u ++ chainsText m⟩ = offset + byteLength u := by
  have hfind := find?_chainsText hfree hlength
  rw [Text.byteLength_append, ← Nat.add_assoc] at hlength
  rw [windowStop, groupPattern_default]
  simp only [hfind]
  cases m with
  | nil => exact hlength.symm
  | cons g m => rw [find?_chain g hlength]

theorem groupsFrom_chainsText (hfree : groupCall.CallFree u)
    (hlength : offset + byteLength (u ++ chainsText m) = length) :
    groupsFrom {} length ⟨offset, u ++ chainsText m⟩ =
      groupsFrom {} length ⟨offset + byteLength u, chainsText m⟩ := by
  have hfind := find?_chainsText hfree hlength
  unfold groupsFrom
  simp only [groupPattern_default, hfind]

theorem groupsFrom_header (g : Chain)
    (hlength : offset + byteLength (chainsText (g :: m)) = length) :
    groupsFrom {} length ⟨offset, chainsText (g :: m)⟩ =
      match variantsFrom variantCall
        (windowStop {} length ⟨offset + byteLength g.header, g.tail ++ chainsText m⟩)
        ⟨offset + byteLength g.header, g.tail ++ chainsText m⟩ with
      | .error e => .error e
      | .ok vs =>
          (groupsFrom {} length ⟨offset + byteLength g.header, g.tail ++ chainsText m⟩).map
            (⟨g.name.value, vs⟩ :: ·) := by
  rw [groupsFrom_eq, groupPattern_default]
  simp only [find?_chain g hlength, Quoted.read?, Chain.header, Text.byteLength_append,
    Nat.add_assoc]
  rfl

/-- A scan that succeeds at a chain has its name, and goes on with what is behind the name. -/
theorem groupsFrom_header_cases {g : Chain} {gs : List Story.Group}
    (hlength : offset + byteLength (chainsText (g :: m)) = length)
    (h : groupsFrom {} length ⟨offset, chainsText (g :: m)⟩ = .ok gs) :
    ∃ vs rest, variantsFrom variantCall
        (windowStop {} length ⟨offset + byteLength g.header, g.tail ++ chainsText m⟩)
        ⟨offset + byteLength g.header, g.tail ++ chainsText m⟩ = .ok vs ∧
      groupsFrom {} length ⟨offset + byteLength g.header, g.tail ++ chainsText m⟩ = .ok rest ∧
      gs = ⟨g.name.value, vs⟩ :: rest := by
  rw [groupsFrom_header g hlength] at h
  split at h
  · cases h
  · rename_i vs hvs
    cases hrest : groupsFrom {} length
        ⟨offset + byteLength g.header, g.tail ++ chainsText m⟩ with
    | error e =>
        rw [hrest] at h
        cases h
    | ok rest =>
        rw [hrest] at h
        cases h
        exact ⟨vs, rest, hvs, rfl, rfl⟩

end Rounds

theorem mark?_spells {p : CallPattern} {t : List Char} {stop offset : Nat} (ht : p.Spells t)
    (hbrace : t.head? ≠ some '{') (rest : List Char) (hstop : offset + byteLength t ≤ stop) :
    mark? p stop offset (t ++ rest) = some (.call ⟨offset + byteLength t, rest⟩) := by
  have hpos := ht.byteLength_pos
  have hargs : p.args? offset (t ++ rest) = some ⟨offset + byteLength t, rest⟩ :=
    CallPattern.args?_eq_some_iff.mpr ⟨t, ht, rfl, rfl⟩
  cases t with
  | nil => exact absurd hpos (Nat.lt_irrefl 0)
  | cons x t =>
      rw [List.cons_append, mark?, if_neg (by omega),
        if_neg (fun hx => hbrace (by rw [hx]; rfl)), ← List.cons_append, hargs]
      exact if_pos hstop

/-- The text has no variants: it is made of gaps and balanced regions. -/
def Inert (w : List Char) : Prop := Window variantCall w (byteLength w) 0 []

theorem variantsFrom_eq_ok_iff_window {w : List Char} {vs : List String} (offset : Nat) :
    variantsFrom variantCall (offset + byteLength w) ⟨offset, w⟩ = .ok vs ↔
      Window variantCall w (byteLength w) 0 vs := by
  have hshift := @variantsFrom_embed variantCall (byteLength w) ⟨0, w⟩ [] offset (by simp)
    (.inl rfl)
  simp only [Cursor.embed, Nat.add_zero, List.append_nil] at hshift
  have hstop : Cursor.In ⟨byteLength w, []⟩ w := ⟨w, by simp, rfl⟩
  have hwindow := @variantsFrom_eq_ok_iff variantCall w [] (byteLength w)
    (variantPattern_head {}) hstop ⟨0, w⟩ vs (Cursor.In.start w) (Nat.zero_le _)
  rw [hshift, ← hwindow]
  cases variantsFrom variantCall (byteLength w) ⟨0, w⟩ with
  | ok ws => exact Iff.rfl
  | error e => simp [mapError_error]

theorem inert_of_balanced {w : List Char} (h : Balanced w) : Inert w :=
  .region (Gap.refl _ _ _ _) ⟨[], [], by simp, rfl, by simp⟩ h (Nat.le_refl _)
    (.gap (Gap.refl _ _ _ _))

theorem inert_of_not_mem {w : List Char} (hbrace : '{' ∉ w) (hdot : '.' ∉ w) : Inert w := by
  refine .gap ⟨Nat.zero_le _, ?_, ?_⟩
  · rintro k - - ⟨before, after, hw, -, -⟩
    apply hbrace
    rw [hw]
    simp
  · intro k a _ _ hoccurs
    exact absurd hoccurs (CallPattern.callFree_of_not_mem variantCall_lead hdot k a)

theorem variantsFrom_inert {u rest : List Char} {offset stop : Nat} (hinert : Inert u)
    (hapart : variantCall.Apart u rest) (hstop : offset + byteLength u ≤ stop) :
    variantsFrom variantCall stop ⟨offset, u ++ rest⟩ =
      variantsFrom variantCall stop ⟨offset + byteLength u, rest⟩ := by
  have hnone := (variantsFrom_eq_ok_iff_window offset).mpr hinert
  have hseam := @variantsFrom_seam variantCall rest stop ⟨offset, u⟩ _ [] hapart rfl hstop hnone
  simp only [Cursor.embed, Nat.zero_add] at hseam
  rw [hseam]
  cases variantsFrom variantCall stop ⟨offset + byteLength u, rest⟩ <;> rfl

section Entries
variable {offset stop : Nat}

theorem variantsFrom_header (e : Entry) (rest : List Char)
    (hstop : offset + byteLength e.header ≤ stop) :
    variantsFrom variantCall stop ⟨offset, e.header ++ rest⟩ =
      (variantsFrom variantCall stop ⟨offset + byteLength e.header, rest⟩).map
        (e.name.value :: ·) := by
  have hshape : e.header ++ rest =
      variantCall.spelling ++ (e.name.text ++ ([',', ' '] ++ rest)) := by
    simp [Entry.header]
  have hlength : byteLength e.header = byteLength variantCall.spelling + byteLength e.name.text +
      byteLength [',', ' '] := by
    simp only [Entry.header, Text.byteLength_append, Nat.add_assoc]
  have hcomma : '.' ∉ [',', ' '] := by decide
  have hmark := mark?_spells variantCall.spells_spelling (by decide)
    (e.name.text ++ ([',', ' '] ++ rest))
    (show offset + byteLength variantCall.spelling ≤ stop by omega)
  rw [variantsFrom_eq, hshape]
  simp only [hmark, Quoted.read?]
  rw [if_neg (by simpa using e.named),
    variantsFrom_inert (inert_of_not_mem (by decide) hcomma)
      (CallPattern.apart_of_not_mem variantCall_lead hcomma _) (by omega), hlength]
  simp only [Nat.add_assoc]

theorem variantsFrom_entry (e : Entry) (hinert : Inert e.argument) (rest : List Char)
    (hstop : offset + byteLength e.text ≤ stop) :
    variantsFrom variantCall stop ⟨offset, e.text ++ rest⟩ =
      (variantsFrom variantCall stop ⟨offset + byteLength e.text, rest⟩).map
        (e.name.value :: ·) := by
  have hshape : e.text ++ rest = e.header ++ (e.argument ++ ([')'] ++ rest)) := by
    simp [Entry.text]
  have hlength : byteLength e.text = byteLength e.header + byteLength e.argument +
      byteLength [')'] := by
    simp only [Entry.text, Text.byteLength_append, Nat.add_assoc]
  have hparen : '.' ∉ [')'] := by decide
  have hargument : variantCall.Apart e.argument ([')'] ++ rest) := variantCall_paren.apart _ _
  rw [hshape, variantsFrom_header e _ (by omega), variantsFrom_inert hinert hargument (by omega),
    variantsFrom_inert (inert_of_not_mem (by decide) hparen)
      (CallPattern.apart_of_not_mem variantCall_lead hparen _) (by omega), hlength]
  simp only [Nat.add_assoc]

theorem variantsFrom_entries {es : List Entry} (hinert : ∀ e ∈ es, Inert e.argument)
    (hstop : offset + byteLength (es.flatMap Entry.text ++ [';', '\n']) = stop) :
    variantsFrom variantCall stop ⟨offset, es.flatMap Entry.text ++ [';', '\n']⟩ =
      .ok (es.map fun e => e.name.value) := by
  induction es generalizing offset with
  | nil =>
      rw [← hstop]
      exact (variantsFrom_eq_ok_iff_window offset).mpr
        (inert_of_not_mem (by decide) (by decide))
  | cons e es ih =>
      rw [List.flatMap_cons, List.append_assoc] at hstop ⊢
      rw [Text.byteLength_append, ← Nat.add_assoc] at hstop
      rw [variantsFrom_entry e (hinert e (by simp)) _ (by omega),
        ih (fun e he => hinert e (by simp [he])) hstop]
      rfl

end Entries

/-- The variants of a chain's tail are those of its entries. -/
theorem Chain.variantsFrom_tail (g : Chain) :
    variantsFrom variantCall (byteLength g.tail) ⟨0, g.tail⟩ =
      variantsFrom variantCall (byteLength g.tail)
        ⟨1, g.entries.flatMap Entry.text ++ [';', '\n']⟩ := by
  have hparen : '.' ∉ [')'] := by decide
  have hlength : byteLength [')'] = 1 := rfl
  have htail : g.tail = [')'] ++ (g.entries.flatMap Entry.text ++ [';', '\n']) := rfl
  rw [htail, variantsFrom_inert (inert_of_not_mem (by decide) hparen)
    (CallPattern.apart_of_not_mem variantCall_lead hparen _) (by simp), hlength]

theorem Chain.window_tail (g : Chain) (hinert : ∀ e ∈ g.entries, Inert e.argument) :
    Window variantCall g.tail (byteLength g.tail) 0 g.variants := by
  apply (variantsFrom_eq_ok_iff_window 0).mp
  rw [Nat.zero_add, g.variantsFrom_tail]
  apply variantsFrom_entries hinert
  simp only [Chain.tail, Text.byteLength_cons]
  rfl

/-- The chains of a text are found, one after the other, if nothing else in it is taken for a
grouping call and each tail has the variants of its chain. -/
theorem groupsFrom_chains {m : List Chain} {offset length : Nat}
    (hfree : ∀ g ∈ m, groupCall.CallFree g.tail)
    (hwindow : ∀ g ∈ m, Window variantCall g.tail (byteLength g.tail) 0 g.variants)
    (hlength : offset + byteLength (chainsText m) = length) :
    groupsFrom {} length ⟨offset, chainsText m⟩ = .ok (m.map Chain.group) := by
  induction m generalizing offset with
  | nil => rfl
  | cons g m ih =>
      have hbehind : offset + byteLength g.header + byteLength (g.tail ++ chainsText m) =
          length := by
        rw [chainsText_cons, Text.byteLength_append] at hlength
        omega
      have hnext := hbehind
      rw [Text.byteLength_append, ← Nat.add_assoc] at hnext
      have hhere := hfree g (by simp)
      have hvariants := (variantsFrom_eq_ok_iff_window 0).mpr (hwindow g (by simp))
      rw [Nat.zero_add] at hvariants
      have hembed := @variantsFrom_embed variantCall (byteLength g.tail) ⟨0, g.tail⟩
        (chainsText m) (offset + byteLength g.header) (by simp) (.inr ⟨_, hvariants⟩)
      simp only [Cursor.embed, Nat.add_zero, hvariants] at hembed
      rw [groupsFrom_header g hlength, windowStop_chainsText hhere hbehind,
        groupsFrom_chainsText hhere hbehind, hembed,
        ih (fun g hg => hfree g (by simp [hg])) (fun g hg => hwindow g (by simp [hg])) hnext]
      rfl

/-- Scanning undoes rendering if the second arguments are balanced regions, whatever stands in
them, and no grouping call stands in a variant's literal or in a region. -/
theorem scan_render_of_balanced (m : List Chain) (hlimit : Options.Admits {} (render m))
    (hbalanced : ∀ g ∈ m, ∀ e ∈ g.entries, Balanced e.argument)
    (hfree : ∀ g ∈ m, ∀ e ∈ g.entries,
      groupCall.CallFree e.name.text ∧ groupCall.CallFree e.argument) :
    scan {} (render m) = .ok (m.map Chain.group) := by
  rw [scan_eq_scanUnlimited hlimit, scanUnlimited_eq, render, String.toList_ofList]
  apply groupsFrom_chains
  · intro g hg
    exact g.callFree_tail.mpr (hfree g hg)
  · intro g hg
    exact g.window_tail (fun e he => inert_of_balanced (hbalanced g hg e he))
  · exact Nat.zero_add _

theorem scan_render_nested_region :
    scan {} (render [⟨⟨"storiesOf('it') .add(", .single⟩,
        [⟨⟨"it's \\ \x7b", .single⟩,
            "\x7b f() \x7b x.add('y', \"\x7d\") \x7d \x7d".toList, by decide⟩,
          ⟨⟨"'b'", .double⟩, "\x7b\x7d".toList, by decide⟩]⟩,
      ⟨⟨"", .double⟩, []⟩]) =
      .ok [⟨"storiesOf('it') .add(", ["it's \\ \x7b", "'b'"]⟩, ⟨"", []⟩] := by
  refine scan_render_of_balanced _ ?_ ?_ ?_
  · rintro limit ⟨⟩
    decide
  · simp only [List.forall_mem_cons, List.not_mem_nil, false_implies, implies_true, and_true]
    exact ⟨balanced_iff_matchBrace.mpr (by with_unfolding_all rfl),
      balanced_iff_matchBrace.mpr (by with_unfolding_all rfl)⟩
  · simp only [List.forall_mem_cons, List.not_mem_nil, false_implies, implies_true, and_true,
      CallPattern.callFree_iff_find? 0]
    decide

end Docset.Scan
