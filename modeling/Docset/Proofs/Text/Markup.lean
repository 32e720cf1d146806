import Docset.Manifest.Page

/-!
# Markup and its parts

A page of markup is text with tags in it, and a tag has quoted values in it. Which part a
character belongs to is decided by the delimiters in front of it alone. A text in which
these are escaped cannot end the part that it stands in, and un-escaping gives it back.
-/
namespace Docset.Markup

/-! ## Un-escaping -/

/-- The character that a decimal reference at the start of a text names, and what follows it. -/
def reference? : List Char → Option (Char × List Char)
  | '&' :: '#' :: rest =>
      match rest.takeWhile Char.isDigit, rest.dropWhile Char.isDigit with
      | d :: ds, ';' :: following => some (Char.ofNat (Nat.ofDigitChars 10 (d :: ds) 0), following)
      | _, _ => none
  | _ => none

theorem reference?_length_lt {cs following : List Char} {c : Char}
    (h : reference? cs = some (c, following)) : following.length < cs.length := by
  unfold reference? at h
  split at h
  · rename_i rest
    split at h
    · rename_i hrest
      have hle := (List.dropWhile_suffix Char.isDigit (l := rest)).length_le
      rw [hrest] at hle
      cases h
      simp only [List.length_cons] at hle ⊢
      omega
    · cases h
  · cases h

def unescape (cs : List Char) : List Char :=
  match cs with
  | [] => []
  | c :: rest =>
      match href : reference? (c :: rest) with
      | some (d, following) =>
          have : following.length ≤ rest.length := Nat.le_of_lt_succ (reference?_length_lt href)
          d :: unescape following
      | none => c :: unescape rest
termination_by cs.length

theorem unescape_reference {c d : Char} {rest following : List Char}
    (h : reference? (c :: rest) = some (d, following)) :
    unescape (c :: rest) = d :: unescape following := by
  rw [unescape]
  split
  · rename_i heq
    rw [h] at heq
    cases heq
    rfl
  · rename_i heq
    rw [h] at heq
    cases heq

theorem unescape_of_ne {c : Char} (h : c ≠ '&') (rest : List Char) :
    unescape (c :: rest) = c :: unescape rest := by
  have hnone : reference? (c :: rest) = none := by
    unfold reference?
    split
    · rename_i heq
      exact absurd (List.cons.inj heq).1 h
    · rfl
  rw [unescape]
  split
  · rename_i heq
    rw [hnone] at heq
    cases heq
  · rfl

theorem unescape_eq_self {cs : List Char} (h : '&' ∉ cs) : unescape cs = cs := by
  induction cs with
  | nil => rw [unescape]
  | cons c cs ih =>
      rw [List.mem_cons, not_or] at h
      rw [unescape_of_ne (Ne.symm h.1), ih h.2]

/-! ## Escaped texts -/

/-- The characters that can end a part. -/
def delimiters : List Char := ['<', '>', '"', '\'']

theorem escapeHtml_eq_self {c : Char} (h : c ∉ '&' :: delimiters) :
    Manifest.escapeHtml c = [c] := by
  simp only [delimiters, List.mem_cons, List.not_mem_nil, or_false, not_or] at h
  simp [Manifest.escapeHtml, h]

theorem unescape_escapeHtml (c : Char) (rest : List Char) :
    unescape (Manifest.escapeHtml c ++ rest) = c :: unescape rest := by
  by_cases hc : c ∈ '&' :: delimiters
  · simp only [delimiters, List.mem_cons, List.not_mem_nil, or_false] at hc
    rcases hc with rfl | rfl | rfl | rfl | rfl <;> exact unescape_reference rfl
  · rw [escapeHtml_eq_self hc, List.singleton_append, unescape_of_ne]
    rintro rfl
    exact hc List.mem_cons_self

theorem unescape_escaped (s : String) (rest : List Char) :
    unescape (Manifest.escaped s ++ rest) = s.toList ++ unescape rest := by
  unfold Manifest.escaped
  induction s.toList with
  | nil => rfl
  | cons c cs ih =>
      rw [List.flatMap_cons, List.append_assoc, unescape_escapeHtml, ih, List.cons_append]

theorem delimiter_not_mem_escaped {c : Char} (hc : c ∈ delimiters) (s : String) :
    c ∉ Manifest.escaped s := by
  intro hmem
  obtain ⟨d, -, hd⟩ := List.mem_flatMap.mp hmem
  by_cases hspecial : d ∈ '&' :: delimiters
  · have hwritten : (('&' :: delimiters).all fun d =>
        delimiters.all fun c => !(Manifest.escapeHtml d).contains c) = true := by decide
    have hnone := List.all_eq_true.mp (List.all_eq_true.mp hwritten d hspecial) c hc
    rw [List.contains_iff_mem.mpr hd] at hnone
    cases hnone
  · rw [escapeHtml_eq_self hspecial, List.mem_singleton] at hd
    subst hd
    exact hspecial (List.mem_cons_of_mem _ hc)

theorem escaped_append (s t : String) :
    Manifest.escaped (s ++ t) = Manifest.escaped s ++ Manifest.escaped t := by
  rw [Manifest.escaped, String.toList_append, List.flatMap_append]
  rfl

/-! ## Reading -/

/-- A part of a page, as it is meant. -/
inductive Part where
  | text (s : String)
  /-- A stretch of a tag outside of its quoted values. -/
  | tag (s : String)
  | value (s : String)
  deriving DecidableEq, Repr

/-- Where in a page a reader is. -/
inductive Context where
  | text
  | tag
  | value (quote : Char)
  deriving DecidableEq, Repr

namespace Context

def endsAt : Context → Char → Bool
  | text, c => c = '<'
  | tag, c => c = '>' || c = '"' || c = '\''
  | value quote, c => c = quote

def after : Context → Char → Context
  | text, _ => tag
  | tag, c => if c = '>' then text else value c
  | value _, _ => tag

/-- The part that characters make. References count in texts and in values. -/
def part : Context → List Char → Part
  | text, cs => .text (String.ofList (unescape cs))
  | tag, cs => .tag (String.ofList cs)
  | value _, cs => .value (String.ofList (unescape cs))

def plainPart : Context → List Char → Part
  | text, cs => .text (String.ofList cs)
  | tag, cs => .tag (String.ofList cs)
  | value _, cs => .value (String.ofList cs)

theorem part_eq_plainPart (context : Context) {cs : List Char} (h : '&' ∉ cs) :
    context.part cs = context.plainPart cs := by
  cases context <;> simp [part, plainPart, unescape_eq_self h]

end Context

/-- What has been read of a page. -/
structure Reading where
  context : Context
  /-- The characters of the part at hand, last first. -/
  run : List Char
  /-- The parts before it, as they are written, last first. -/
  pieces : List (Context × List Char)
  deriving DecidableEq, Repr

def Reading.step (r : Reading) (c : Char) : Reading :=
  if r.context.endsAt c then ⟨r.context.after c, [], (r.context, r.run.reverse) :: r.pieces⟩
  else { r with run := c :: r.run }

/-- The parts of a page, unless it ends within a tag. -/
def read? (page : String) : Option (List Part) :=
  let r := page.toList.foldl Reading.step ⟨.text, [], []⟩
  match r.context with
  | .text => some (((r.context, r.run.reverse) :: r.pieces).reverse.map fun p => p.1.part p.2)
  | _ => none

/-- Reading `cs` leads from one context to another, each with what has been read of the part at
hand, and completes `parts` on the way. -/
def Reads (start : Context × List Char) (cs : List Char) (stop : Context × List Char)
    (parts : List Part) : Prop :=
  ∀ before, ∃ pieces, cs.foldl Reading.step ⟨start.1, start.2, before⟩ =
      ⟨stop.1, stop.2, pieces ++ before⟩ ∧
    (pieces.reverse.map fun p => p.1.part p.2) = parts

namespace Reads

variable {start mid stop : Context × List Char} {cs ds : List Char} {parts more : List Part}

theorem refl (start : Context × List Char) : Reads start [] start [] :=
  fun _ => ⟨[], rfl, rfl⟩

theorem trans (h : Reads start cs mid parts) (h' : Reads mid ds stop more) :
    Reads start (cs ++ ds) stop (parts ++ more) := by
  intro before
  obtain ⟨first, hfirst, hparts⟩ := h before
  obtain ⟨second, hsecond, hmore⟩ := h' (first ++ before)
  refine ⟨second ++ first, ?_, ?_⟩
  · rw [List.foldl_append, hfirst, hsecond, List.append_assoc]
  · rw [List.reverse_append, List.map_append, hparts, hmore]

/-- Characters that do not end a part, and then one that does. -/
theorem part {context : Context} {cs : List Char} {e : Char}
    (hcs : ∀ c ∈ cs, context.endsAt c = false) (he : context.endsAt e = true) :
    Reads (context, []) (cs ++ [e]) (context.after e, []) [context.part cs] := by
  have hrun : ∀ run before, cs.foldl Reading.step ⟨context, run, before⟩ =
      ⟨context, cs.reverse ++ run, before⟩ := by
    induction cs with
    | nil => exact fun _ _ => rfl
    | cons c cs ih =>
        intro run before
        obtain ⟨hc, hrest⟩ := List.forall_mem_cons.mp hcs
        have hstep : Reading.step ⟨context, run, before⟩ c = ⟨context, c :: run, before⟩ := by
          simp [Reading.step, hc]
        rw [List.foldl_cons, hstep, ih hrest, List.reverse_cons, List.append_assoc,
          List.singleton_append]
  intro before
  refine ⟨[(context, cs)], ?_, rfl⟩
  rw [List.foldl_append, hrun, List.foldl_cons, List.foldl_nil]
  simp [Reading.step, he]

/-- An escaped text is one part, to the character behind it that ends the part. -/
theorem escaped (context : Context) (e : Char)
    (hcontext : context = .text ∨ context = .value '"') (he : context.endsAt e = true)
    (s : String) :
    Reads (context, []) (Manifest.escaped s ++ [e]) (context.after e, [])
      [context.plainPart s.toList] := by
  have hmeant : unescape (Manifest.escaped s) = s.toList := by
    have hall := unescape_escaped s []
    rwa [List.append_nil, unescape, List.append_nil] at hall
  have hpart : context.part (Manifest.escaped s) = context.plainPart s.toList := by
    rcases hcontext with rfl | rfl <;> simp [Context.part, Context.plainPart, hmeant]
  have hdelimiter : ∀ c, context.endsAt c = true → c ∈ delimiters := by
    rcases hcontext with rfl | rfl <;> simp [Context.endsAt, delimiters]
  rw [← hpart]
  apply part _ he
  intro c hc
  rw [Bool.eq_false_iff]
  intro hends
  exact delimiter_not_mem_escaped (hdelimiter c hends) s hc

theorem foldl_step_append (cs : List Char) (r : Reading) (before : List (Context × List Char)) :
    cs.foldl Reading.step ⟨r.context, r.run, r.pieces ++ before⟩ =
      ⟨(cs.foldl Reading.step r).context, (cs.foldl Reading.step r).run,
        (cs.foldl Reading.step r).pieces ++ before⟩ := by
  induction cs generalizing r with
  | nil => rfl
  | cons c cs ih =>
      have hstep : Reading.step ⟨r.context, r.run, r.pieces ++ before⟩ c =
          ⟨(r.step c).context, (r.step c).run, (r.step c).pieces ++ before⟩ := by
        unfold Reading.step
        split <;> rfl
      rw [List.foldl_cons, hstep, ih, List.foldl_cons]

/-- What a fixed stretch without references does is found by reading it. -/
theorem of_fixed {r : Reading} (hread : cs.foldl Reading.step ⟨start.1, start.2, []⟩ = r)
    (h : (r.context, r.run) = stop ∧ (∀ p ∈ r.pieces, '&' ∉ p.2) ∧
      (r.pieces.reverse.map fun p => p.1.plainPart p.2) = parts) :
    Reads start cs stop parts := by
  obtain ⟨rfl, hplain, rfl⟩ := h
  intro before
  refine ⟨r.pieces, ?_, ?_⟩
  · have hpass := foldl_step_append cs ⟨start.1, start.2, []⟩ before
    rw [hread] at hpass
    exact hpass
  · apply List.map_congr_left
    intro p hp
    exact p.1.part_eq_plainPart (hplain p (List.mem_reverse.mp hp))

end Reads

/-- A page that is read to its end in a text is the parts completed and that text. -/
theorem read?_of_reads {page : String} {run : List Char} {parts : List Part}
    (h : Reads (.text, []) page.toList (.text, run) parts) :
    read? page = some (parts ++ [Context.text.part run.reverse]) := by
  obtain ⟨pieces, hread, hparts⟩ := h []
  unfold read?
  simp only [hread, List.append_nil, List.reverse_cons, List.map_append, hparts, List.map_cons,
    List.map_nil]

end Docset.Markup
