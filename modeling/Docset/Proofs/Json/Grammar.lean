import Docset.Json.Reader

/-!
# The grammar of JSON documents

A document writes a value in many ways: there may be blanks around every value and key,
characters of strings may be escaped, and numbers have several forms. `Writes` says which
texts write a value, along the grammar of the language and without regard to how a text is
read. Every such text is read as the value that it writes. It is cut into tokens, whatever
stands behind it, as long as a number is not followed by more of a number; and the machine
that reads tokens, started where a value has to follow, ends with the value. Both are said
of each part of a document, so that they can be put together along the grammar.
-/
namespace Docset.Json

variable {seen : List Token} {cs ds rest : List Char} {ts us : List Token} {t : Token}

/-! ## What is written -/

def Blank (cs : List Char) : Prop := ∀ c ∈ cs, isBlank c = true

theorem blank_nil : Blank [] := fun _ h => by cases h

/-- One unit of a string: a character as it is, an escaped character, or an escaped unit. -/
inductive WritesUnit : List Char → Nat → Prop
  | plain {c : Char} (hquote : c ≠ '"') (hslash : c ≠ '\\') (hcontrol : ¬ c < ' ') :
      WritesUnit [c] c.toNat
  | short {c e : Char} (h : shortEscape? c = some e) : WritesUnit ['\\', c] e.toNat
  | hex {a b c d : Char} {u : Nat} (h : unit? a b c d = some u) :
      WritesUnit ['\\', 'u', a, b, c, d] u

inductive WritesUnits : List Char → List Nat → Prop
  | nil : WritesUnits [] []
  | cons {cs ds : List Char} {u : Nat} {units : List Nat} (h : WritesUnit cs u)
      (hrest : WritesUnits ds units) : WritesUnits (cs ++ ds) (u :: units)

/-- A quoted string; it says nothing if its units do not form characters. -/
inductive WritesString : List Char → Option String → Prop
  | mk {cs : List Char} {units : List Nat} (h : WritesUnits cs units) :
      WritesString ('"' :: (cs ++ ['"'])) ((joinUnits? [] units).map String.ofList)

def Digits (ds : List Char) : Prop := ds ≠ [] ∧ ∀ d ∈ ds, d.isDigit = true

/-- The integer part of a number has no leading zero, unless it is zero. -/
def Whole (ds : List Char) : Prop := Digits ds ∧ (ds = ['0'] ∨ ds.head? ≠ some '0')

/-- An optional fraction; the flag says whether there is one. -/
inductive Fraction : List Char → Bool → Prop
  | absent : Fraction [] false
  | present {ds : List Char} (h : Digits ds) : Fraction ('.' :: ds) true

/-- An optional exponent; the flag says whether there is one. -/
inductive Exponent : List Char → Bool → Prop
  | absent : Exponent [] false
  | present {e : Char} {sign ds : List Char} (he : e = 'e' ∨ e = 'E')
      (hsign : sign = [] ∨ sign = ['+'] ∨ sign = ['-']) (h : Digits ds) :
      Exponent (e :: (sign ++ ds)) true

/-- An optional minus sign; the flag says whether there is one. -/
inductive Sign : List Char → Bool → Prop
  | absent : Sign [] false
  | present : Sign ['-'] true

/-- The parts of a document, with what they say. -/
inductive Form where
  | value (v : Json)
  /-- A value with blanks around it. -/
  | element (v : Json)
  /-- What stands between the brackets of an array that is not empty. -/
  | elements (items : List Json)
  | member (key : Option String) (v : Json)
  /-- What stands between the braces of an object that is not empty. -/
  | members (members : List (Option String × Json))

/-- Which texts write a part of a document. -/
inductive Writes : Form → List Char → Prop
  | null : Writes (.value .null) ['n', 'u', 'l', 'l']
  | true : Writes (.value (.bool true)) ['t', 'r', 'u', 'e']
  | false : Writes (.value (.bool false)) ['f', 'a', 'l', 's', 'e']
  | natural {ds : List Char} (h : Whole ds) : Writes (.value (.natural (digitsValue ds))) ds
  | number {sign whole fraction exponent : List Char} {negative hasFraction hasExponent : Bool}
      (hsign : Sign sign negative) (hwhole : Whole whole)
      (hfraction : Fraction fraction hasFraction) (hexponent : Exponent exponent hasExponent)
      (hother : (negative || hasFraction || hasExponent) = .true) :
      Writes (.value .number) (sign ++ (whole ++ (fraction ++ exponent)))
  | string {cs : List Char} {s : String} (h : WritesString cs (some s)) :
      Writes (.value (.string s)) cs
  | unreadable {cs : List Char} (h : WritesString cs none) : Writes (.value .unreadable) cs
  | emptyArray {cs : List Char} (h : Blank cs) : Writes (.value (.array [])) ('[' :: (cs ++ [']']))
  | array {cs : List Char} {items : List Json} (h : Writes (.elements items) cs) :
      Writes (.value (.array items)) ('[' :: (cs ++ [']']))
  | emptyObject {cs : List Char} (h : Blank cs) :
      Writes (.value (.object [])) ('{' :: (cs ++ ['}']))
  | object {cs : List Char} {members : List (Option String × Json)}
      (h : Writes (.members members) cs) :
      Writes (.value (ofMembers members)) ('{' :: (cs ++ ['}']))
  | element {before cs after : List Char} {v : Json} (hbefore : Blank before)
      (h : Writes (.value v) cs) (hafter : Blank after) :
      Writes (.element v) (before ++ (cs ++ after))
  | lastElement {cs : List Char} {v : Json} (h : Writes (.element v) cs) :
      Writes (.elements [v]) cs
  | elements {cs ds : List Char} {v : Json} {items : List Json} (h : Writes (.element v) cs)
      (hrest : Writes (.elements items) ds) : Writes (.elements (v :: items)) (cs ++ ',' :: ds)
  | member {before ks after cs : List Char} {key : Option String} {v : Json}
      (hbefore : Blank before) (hkey : WritesString ks key) (hafter : Blank after)
      (h : Writes (.element v) cs) :
      Writes (.member key v) (before ++ (ks ++ (after ++ ':' :: cs)))
  | lastMember {cs : List Char} {key : Option String} {v : Json} (h : Writes (.member key v) cs) :
      Writes (.members [(key, v)]) cs
  | members {cs ds : List Char} {key : Option String} {v : Json}
      {members : List (Option String × Json)} (h : Writes (.member key v) cs)
      (hrest : Writes (.members members) ds) :
      Writes (.members ((key, v) :: members)) (cs ++ ',' :: ds)

def Written (v : Json) (text : String) : Prop := Writes (.element v) text.toList

/-! ## Strings -/

theorem stringUnits_of_writesUnit {u : Nat} (h : WritesUnit cs u) (units : List Nat)
    (rest : List Char) : stringUnits units (cs ++ rest) = stringUnits (u :: units) rest := by
  cases h with
  | plain hquote hslash hcontrol => simp [stringUnits, hquote, hslash, hcontrol]
  | short hescape =>
      rename_i c e
      have hc : c ≠ 'u' := by
        rintro rfl
        cases hescape
      simp [stringUnits, hc, hescape]
  | hex hunit => simp [stringUnits, hunit]

theorem stringUnits_of_writesUnits {more : List Nat} (h : WritesUnits cs more) (units : List Nat)
    (rest : List Char) :
    stringUnits units (cs ++ '"' :: rest) = some (units.reverse ++ more, rest) := by
  induction h generalizing units with
  | nil => simp [stringUnits]
  | cons hunit _ ih =>
      rw [List.append_assoc, stringUnits_of_writesUnit hunit, ih]
      simp

theorem token?_of_writesString {s : Option String} (h : WritesString cs s) (rest : List Char) :
    token? (cs ++ rest) = some (.string s, rest) := by
  cases h with
  | mk hunits =>
      rw [List.cons_append, List.append_assoc, List.singleton_append, token?,
        stringUnits_of_writesUnits hunits]
      rfl

/-! ## Numbers -/

/-- What may follow a number: nothing that could be more of it. -/
def Delimits (rest : List Char) : Prop :=
  ∀ c ∈ rest.head?, c.isDigit = false ∧ c ≠ '.' ∧ c ≠ 'e' ∧ c ≠ 'E'

def EndsDigits (rest : List Char) : Prop := ∀ c ∈ rest.head?, c.isDigit = false

theorem Delimits.endsDigits (h : Delimits rest) : EndsDigits rest := fun c hc => (h c hc).1

theorem digits?_append (hds : Digits ds) (hrest : EndsDigits rest) :
    digits? (ds ++ rest) = some (ds, rest) := by
  have hstop : rest.takeWhile Char.isDigit = [] ∧ rest.dropWhile Char.isDigit = rest := by
    cases rest with
    | nil => exact ⟨rfl, rfl⟩
    | cons c rest =>
        have hc := hrest c rfl
        simp [hc]
  unfold digits?
  rw [List.takeWhile_append_of_pos hds.2, List.dropWhile_append_of_pos hds.2, hstop.1, hstop.2,
    List.append_nil]
  cases ds with
  | nil => exact absurd rfl hds.1
  | cons d ds => rfl

theorem whole?_append (hds : Whole ds) (hrest : EndsDigits rest) :
    whole? (ds ++ rest) = some (ds, rest) := by
  unfold whole?
  rw [digits?_append hds.1 hrest]
  split
  · rename_i heq
    cases heq
    cases hds.2 with
    | inl hzero => simp at hzero
    | inr hlead => simp at hlead
  · rfl

theorem fraction?_append {hasFraction : Bool} (h : Fraction cs hasFraction)
    (hrest : EndsDigits rest) (hpoint : rest.head? ≠ some '.') :
    fraction? (cs ++ rest) = some (hasFraction, rest) := by
  cases h with
  | absent =>
      rw [List.nil_append]
      unfold fraction?
      split
      · exact absurd rfl hpoint
      · rfl
  | present hdigits =>
      rw [List.cons_append, fraction?, digits?_append hdigits hrest]
      rfl

theorem Digits.exists_cons (h : Digits ds) : ∃ d more, ds = d :: more ∧ d.isDigit = true := by
  obtain ⟨d, more, rfl⟩ := List.exists_cons_of_ne_nil h.1
  exact ⟨d, more, rfl, h.2 d List.mem_cons_self⟩

theorem afterSign_append {sign : List Char} (hsign : sign = [] ∨ sign = ['+'] ∨ sign = ['-'])
    (hdigits : Digits ds) : afterSign (sign ++ (ds ++ rest)) = ds ++ rest := by
  rcases hsign with rfl | rfl | rfl
  · obtain ⟨d, more, rfl, hd⟩ := hdigits.exists_cons
    rw [List.nil_append, List.cons_append]
    unfold afterSign
    split
    · exact absurd hd (by simp_all)
    · exact absurd hd (by simp_all)
    · rfl
  · rfl
  · rfl

theorem exponent?_append {hasExponent : Bool} (h : Exponent cs hasExponent)
    (hrest : Delimits rest) : exponent? (cs ++ rest) = some (hasExponent, rest) := by
  cases h with
  | absent =>
      cases rest with
      | nil => rfl
      | cons c rest =>
          have hc := (hrest c rfl).2.2
          simp [exponent?, hc]
  | present he hsign hdigits =>
      rw [List.cons_append, exponent?, if_pos he, List.append_assoc,
        afterSign_append hsign hdigits, digits?_append hdigits hrest.endsDigits]
      rfl

/-- Neither an exponent nor what follows a number begins like more digits or a fraction. -/
theorem head?_exponent {hasExponent : Bool} (h : Exponent cs hasExponent) (hrest : Delimits rest) :
    EndsDigits (cs ++ rest) ∧ (cs ++ rest).head? ≠ some '.' := by
  cases h with
  | absent =>
      refine ⟨hrest.endsDigits, fun hpoint => ?_⟩
      exact (hrest '.' hpoint).2.1 rfl
  | present he =>
      rcases he with rfl | rfl
      · exact ⟨fun c hc => by cases hc; rfl, by simp⟩
      · exact ⟨fun c hc => by cases hc; rfl, by simp⟩

theorem endsDigits_fraction {hasFraction : Bool} (h : Fraction cs hasFraction)
    (hrest : EndsDigits rest) : EndsDigits (cs ++ rest) := by
  cases h with
  | absent => exact hrest
  | present =>
      intro c hc
      cases hc
      rfl

/-- The token of a number; it has a value if it is nothing but an integer part. -/
def numberToken (isOther : Bool) (whole : List Char) : Token :=
  if isOther then .number else .natural (digitsValue whole)

theorem unsigned?_append {whole fraction exponent : List Char} {hasFraction hasExponent : Bool}
    (hwhole : Whole whole) (hfraction : Fraction fraction hasFraction)
    (hexponent : Exponent exponent hasExponent) (hrest : Delimits rest) :
    unsigned? (whole ++ (fraction ++ (exponent ++ rest))) =
      some (numberToken (hasFraction || hasExponent) whole, rest) := by
  obtain ⟨hends, hpoint⟩ := head?_exponent hexponent hrest
  have hends' := endsDigits_fraction hfraction hends
  simp [unsigned?, whole?_append hwhole hends', fraction?_append hfraction hends hpoint,
    exponent?_append hexponent hrest, numberToken]

/-- A digit is none of the characters that begin another token. -/
theorem token?_of_isDigit {d : Char} (hd : d.isDigit = true) (cs : List Char) :
    token? (d :: cs) = unsigned? (d :: cs) := by
  unfold token?
  split
  case h_1 heq => exact absurd heq (List.cons_ne_nil _ _)
  case h_13 => rfl
  all_goals
    rename_i heq
    rw [(List.cons.inj heq).1] at hd
    exact absurd hd (by decide)

theorem isBlank_of_isDigit {d : Char} (hd : d.isDigit = true) : isBlank d = false := by
  rw [Bool.eq_false_iff]
  intro hblank
  simp only [isBlank, Bool.or_eq_true, decide_eq_true_eq] at hblank
  rcases hblank with ((rfl | rfl) | rfl) | rfl <;> exact absurd hd (by decide)

/-! ## Tokens -/

theorem tokensFrom?_blank {c : Char} (h : isBlank c) :
    tokensFrom? seen (c :: rest) = tokensFrom? seen rest := by
  rw [tokensFrom?, if_pos h]

theorem tokensFrom?_token {c : Char} {cs : List Char} {t : Token} (hc : isBlank c = false)
    (h : token? (c :: cs) = some (t, rest)) :
    tokensFrom? seen (c :: cs) = tokensFrom? (t :: seen) rest := by
  rw [tokensFrom?, if_neg (by simp [hc])]
  split
  · rename_i hnone
    rw [h] at hnone
    cases hnone
  · rename_i hsome
    rw [h] at hsome
    cases hsome
    rfl

theorem Delimits.append (h : Delimits cs) (hrest : Delimits rest) : Delimits (cs ++ rest) := by
  cases cs with
  | nil => exact hrest
  | cons c cs => exact h

theorem Blank.delimits (h : Blank cs) : Delimits cs := by
  intro c hc
  have hblank := h c (List.mem_of_mem_head? hc)
  simp only [isBlank, Bool.or_eq_true, decide_eq_true_eq] at hblank
  rcases hblank with ((rfl | rfl) | rfl) | rfl <;> decide

/-- A character that is a token of its own. -/
structure Marks (c : Char) (t : Token) : Prop where
  token : ∀ rest, token? (c :: rest) = some (t, rest)
  notBlank : isBlank c = false
  ends : c.isDigit = false ∧ c ≠ '.' ∧ c ≠ 'e' ∧ c ≠ 'E'

namespace Marks

theorem delimits {c : Char} (h : Marks c t) : Delimits (c :: rest) := by
  intro d hd
  cases hd
  exact h.ends

theorem openBrace : Marks '{' .openBrace := ⟨fun _ => rfl, by decide, by decide⟩

theorem closeBrace : Marks '}' .closeBrace := ⟨fun _ => rfl, by decide, by decide⟩

theorem openBracket : Marks '[' .openBracket := ⟨fun _ => rfl, by decide, by decide⟩

theorem closeBracket : Marks ']' .closeBracket := ⟨fun _ => rfl, by decide, by decide⟩

theorem colon : Marks ':' .colon := ⟨fun _ => rfl, by decide, by decide⟩

theorem comma : Marks ',' .comma := ⟨fun _ => rfl, by decide, by decide⟩

end Marks

/-- A text is cut into these tokens, whatever has been read before and follows it. -/
def Lexes (cs : List Char) (ts : List Token) : Prop :=
  ∀ seen rest, Delimits rest →
    tokensFrom? seen (cs ++ rest) = tokensFrom? (ts.reverse ++ seen) rest

namespace Lexes

variable {c : Char}

theorem single (hc : isBlank c = false)
    (h : ∀ rest, Delimits rest → token? (c :: cs ++ rest) = some (t, rest)) :
    Lexes (c :: cs) [t] := by
  intro seen rest hrest
  exact tokensFrom?_token hc (h rest hrest)

theorem nil : Lexes [] [] := fun _ _ _ => rfl

theorem cons (hc : Marks c t) (h : Lexes cs ts) : Lexes (c :: cs) (t :: ts) := by
  intro seen rest hrest
  rw [List.cons_append, tokensFrom?_token hc.notBlank (hc.token _), h _ rest hrest,
    List.reverse_cons, List.append_assoc, List.singleton_append]

theorem append (h : Lexes cs ts) (hmore : Lexes ds us) (hds : Delimits ds) :
    Lexes (cs ++ ds) (ts ++ us) := by
  intro seen rest hrest
  rw [List.append_assoc, h _ _ (hds.append hrest), hmore _ _ hrest, List.reverse_append,
    List.append_assoc]

theorem append_cons (h : Lexes cs ts) (hc : Marks c t) (hmore : Lexes ds us) :
    Lexes (cs ++ c :: ds) (ts ++ t :: us) :=
  h.append (hmore.cons hc) hc.delimits

theorem blank_append (h : Lexes ds ts) (hblank : Blank cs) : Lexes (cs ++ ds) ts := by
  induction cs with
  | nil => exact h
  | cons c cs ih =>
      intro seen rest hrest
      have hmore := ih (fun d hd => hblank d (List.mem_cons_of_mem c hd)) seen rest hrest
      rw [List.cons_append, List.cons_append, tokensFrom?_blank (hblank c List.mem_cons_self),
        hmore]

theorem append_blank (h : Lexes cs ts) (hblank : Blank ds) : Lexes (cs ++ ds) ts := by
  have hnone := nil.blank_append hblank
  rw [List.append_nil] at hnone
  have hall := h.append hnone hblank.delimits
  rwa [List.append_nil] at hall

theorem string {s : Option String} (h : WritesString cs s) : Lexes cs [.string s] := by
  have htoken := token?_of_writesString h
  cases h with
  | mk hunits => exact single (by decide) fun rest _ => htoken rest

theorem member {ks after : List Char} {key : Option String} (h : Lexes cs ts)
    (hkey : WritesString ks key) (hafter : Blank after) :
    Lexes (ks ++ (after ++ ':' :: cs)) (.string key :: .colon :: ts) :=
  (string hkey).append ((h.cons .colon).blank_append hafter)
    (hafter.delimits.append Marks.colon.delimits)

theorem number {sign whole fraction exponent : List Char} {negative hasFraction hasExponent : Bool}
    (hsign : Sign sign negative) (hwhole : Whole whole) (hfraction : Fraction fraction hasFraction)
    (hexponent : Exponent exponent hasExponent) :
    Lexes (sign ++ (whole ++ (fraction ++ exponent)))
      [numberToken (negative || hasFraction || hasExponent) whole] := by
  have hunsigned : ∀ rest, Delimits rest → unsigned? (whole ++ (fraction ++ exponent) ++ rest) =
      some (numberToken (hasFraction || hasExponent) whole, rest) := by
    intro rest hrest
    rw [List.append_assoc, List.append_assoc]
    exact unsigned?_append hwhole hfraction hexponent hrest
  cases hsign with
  | present =>
      rw [List.singleton_append]
      apply single (by decide)
      intro rest hrest
      rw [List.cons_append, token?, hunsigned rest hrest]
      rfl
  | absent =>
      obtain ⟨d, more, rfl, hd⟩ := hwhole.1.exists_cons
      apply single (isBlank_of_isDigit hd)
      intro rest hrest
      exact (token?_of_isDigit hd _).trans (hunsigned rest hrest)

end Lexes

/-! ## The machine -/

/-- Tokens take the machine from one point to another. -/
def Leads (p : Progress) (ts : List Token) (q : Progress) : Prop :=
  ts.foldlM Progress.step? p = some q

namespace Leads

variable {p q r : Progress} {stack : List Frame}

theorem cons (hstep : p.step? t = some q) (h : Leads q ts r) : Leads p (t :: ts) r := by
  unfold Leads
  rw [List.foldlM_cons, hstep]
  exact h

theorem single (hstep : p.step? t = some q) : Leads p [t] q := cons hstep rfl

theorem append (h : Leads p ts q) (hmore : Leads q us r) : Leads p (ts ++ us) r := by
  unfold Leads at h
  unfold Leads
  rw [List.foldlM_append, h]
  exact hmore

/-- What reads a value where an item has to follow reads it at the start of an array as well: it
does not begin with the bracket that closes the array. -/
theorem firstItem {v : Json} {stack' : List Frame}
    (h : Leads (.value (.array [] :: stack)) ts (.done v stack')) :
    Leads (.firstItem stack) ts (.done v stack') := by
  cases ts with
  | nil => cases h
  | cons t ts =>
      unfold Leads at h ⊢
      rw [List.foldlM_cons] at h ⊢
      cases t with
      | closeBracket => cases h
      | _ => exact h

theorem firstKey {v : Json} {stack' : List Frame}
    (h : Leads (.key [] stack) ts (.done v stack')) :
    Leads (.firstKey stack) ts (.done v stack') := by
  cases ts with
  | nil => cases h
  | cons t ts =>
      unfold Leads at h ⊢
      rw [List.foldlM_cons] at h ⊢
      cases t with
      | string k => exact h
      | _ => cases h

end Leads

/-- What the tokens of a part of a document do, in any place where the part may stand. -/
def Form.Runs : Form → List Token → Prop
  | value v, ts => ∀ stack, Leads (.value stack) ts (.done v stack)
  | element v, ts => ∀ stack, Leads (.value stack) ts (.done v stack)
  | elements items, ts => ∀ before stack,
      Leads (.value (.array before :: stack)) (ts ++ [.closeBracket])
        (.done (.array (before.reverse ++ items)) stack)
  | member key v, ts => ∀ before stack,
      Leads (.key before stack) ts (.done v (.object before key :: stack))
  | members all, ts => ∀ before stack,
      Leads (.key before stack) (ts ++ [.closeBrace])
        (.done (ofMembers (before.reverse ++ all)) stack)

namespace Form

variable {v : Json} {key : Option String} {items : List Json}
  {others : List (Option String × Json)}

theorem Runs.single (h : ∀ stack, beginValue? stack t = some (.done v stack)) :
    (value v).Runs [t] := fun stack => Leads.single (h stack)

theorem Runs.array (h : (elements items).Runs ts) :
    (value (.array items)).Runs (.openBracket :: (ts ++ [.closeBracket])) :=
  fun stack => .cons rfl (h [] stack).firstItem

theorem Runs.object (h : (members others).Runs ts) :
    (value (ofMembers others)).Runs (.openBrace :: (ts ++ [.closeBrace])) :=
  fun stack => .cons rfl (h [] stack).firstKey

theorem Runs.lastElement (h : (element v).Runs ts) : (elements [v]).Runs ts := by
  intro before stack
  refine (h _).append (.single ?_)
  rw [Progress.step?, List.reverse_cons]

theorem Runs.elements (h : (element v).Runs ts) (hrest : (Form.elements items).Runs us) :
    (Form.elements (v :: items)).Runs (ts ++ .comma :: us) := by
  intro before stack
  have hmore := hrest (v :: before) stack
  rw [List.reverse_cons, List.append_assoc, List.singleton_append] at hmore
  rw [List.append_assoc]
  exact (h _).append (.cons rfl hmore)

theorem Runs.member (h : (element v).Runs ts) :
    (Form.member key v).Runs (.string key :: .colon :: ts) :=
  fun _ _ => .cons rfl (.cons rfl (h _))

theorem Runs.lastMember (h : (Form.member key v).Runs ts) : (members [(key, v)]).Runs ts := by
  intro before stack
  refine (h _ _).append (.single ?_)
  rw [Progress.step?, List.reverse_cons]

theorem Runs.members (h : (Form.member key v).Runs ts) (hrest : (Form.members others).Runs us) :
    (Form.members ((key, v) :: others)).Runs (ts ++ .comma :: us) := by
  intro before stack
  have hmore := hrest ((key, v) :: before) stack
  rw [List.reverse_cons, List.append_assoc, List.singleton_append] at hmore
  rw [List.append_assoc]
  exact (h _ _).append (.cons rfl hmore)

end Form

/-- Every part of a document is cut into tokens that the machine reads as what the part says. -/
theorem Writes.reads {form : Form} (h : Writes form cs) : ∃ ts, Lexes cs ts ∧ form.Runs ts := by
  induction h with
  | null => exact ⟨[.null], .single (by decide) fun _ _ => rfl, .single fun _ => rfl⟩
  | true => exact ⟨[.bool .true], .single (by decide) fun _ _ => rfl, .single fun _ => rfl⟩
  | false => exact ⟨[.bool .false], .single (by decide) fun _ _ => rfl, .single fun _ => rfl⟩
  | natural hwhole =>
      have hlexes := Lexes.number .absent hwhole .absent .absent
      simp only [List.nil_append, List.append_nil] at hlexes
      exact ⟨_, hlexes, .single fun _ => rfl⟩
  | number hsign hwhole hfraction hexponent hother =>
      have hlexes := Lexes.number hsign hwhole hfraction hexponent
      rw [numberToken, if_pos hother] at hlexes
      exact ⟨_, hlexes, .single fun _ => rfl⟩
  | string hstring => exact ⟨_, .string hstring, .single fun _ => rfl⟩
  | unreadable hstring => exact ⟨_, .string hstring, .single fun _ => rfl⟩
  | emptyArray hblank =>
      exact ⟨_, ((Lexes.nil.cons .closeBracket).blank_append hblank).cons .openBracket,
        fun _ => .cons rfl (.single rfl)⟩
  | array _ ih =>
      obtain ⟨ts, hlexes, hruns⟩ := ih
      exact ⟨_, (hlexes.append_cons .closeBracket .nil).cons .openBracket, hruns.array⟩
  | emptyObject hblank =>
      exact ⟨_, ((Lexes.nil.cons .closeBrace).blank_append hblank).cons .openBrace,
        fun _ => .cons rfl (.single rfl)⟩
  | object _ ih =>
      obtain ⟨ts, hlexes, hruns⟩ := ih
      exact ⟨_, (hlexes.append_cons .closeBrace .nil).cons .openBrace, hruns.object⟩
  | element hbefore _ hafter ih =>
      obtain ⟨ts, hlexes, hruns⟩ := ih
      exact ⟨ts, (hlexes.append_blank hafter).blank_append hbefore, hruns⟩
  | lastElement _ ih =>
      obtain ⟨ts, hlexes, hruns⟩ := ih
      exact ⟨ts, hlexes, hruns.lastElement⟩
  | elements _ _ ih ihrest =>
      obtain ⟨ts, hlexes, hruns⟩ := ih
      obtain ⟨us, hlexes', hruns'⟩ := ihrest
      exact ⟨_, hlexes.append_cons .comma hlexes', hruns.elements hruns'⟩
  | member hbefore hkey hafter _ ih =>
      obtain ⟨ts, hlexes, hruns⟩ := ih
      exact ⟨_, (hlexes.member hkey hafter).blank_append hbefore, hruns.member⟩
  | lastMember _ ih =>
      obtain ⟨ts, hlexes, hruns⟩ := ih
      exact ⟨ts, hlexes, hruns.lastMember⟩
  | members _ _ ih ihrest =>
      obtain ⟨ts, hlexes, hruns⟩ := ih
      obtain ⟨us, hlexes', hruns'⟩ := ihrest
      exact ⟨_, hlexes.append_cons .comma hlexes', hruns.members hruns'⟩

/-- A document is read as the value that it writes. -/
theorem parse?_of_written {v : Json} {text : String} (h : Written v text) :
    parse? text = some v := by
  obtain ⟨ts, hlexes, hruns⟩ := Writes.reads h
  have htokens := hlexes [] [] fun c hc => by cases hc
  rw [List.append_nil, List.append_nil, tokensFrom?, List.reverse_reverse] at htokens
  have hvalue : ts.foldlM Progress.step? (.value []) = some (.done v []) := hruns []
  unfold parse? tokens?
  rw [htokens, Option.bind_some, ofTokens?, hvalue]

end Docset.Json
