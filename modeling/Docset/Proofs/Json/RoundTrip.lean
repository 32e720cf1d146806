import Docset.Json.Printer
import Docset.Proofs.Json.Grammar
import Docset.Proofs.Text.Decimal

/-!
# A printed document is read back

What the printer leaves nothing out of is printed as a text that writes it: strings with
the escapes that the grammar has, numbers without leading zeros, and line breaks and
indentation where blanks may stand. So it is read back, like every text that writes it.
-/
namespace Docset.Json

/-! ## Strings -/

theorem unit?_hexDigit {n : Nat} (h : n < 32) :
    unit? '0' '0' (hexDigit (n / 16)) (hexDigit n) = some n := by
  have hall : ∀ n < 32, unit? '0' '0' (hexDigit (n / 16)) (hexDigit n) = some n := by decide
  exact hall n h

theorem writesUnit_escapeChar (c : Char) : WritesUnit (escapeChar c) c.toNat := by
  by_cases hquote : c = '"'
  · subst hquote
    exact .short rfl
  by_cases hslash : c = '\\'
  · subst hslash
    exact .short rfl
  by_cases hback : c = '\x08'
  · subst hback
    exact .short rfl
  by_cases hfeed : c = '\x0C'
  · subst hfeed
    exact .short rfl
  by_cases hline : c = '\n'
  · subst hline
    exact .short rfl
  by_cases hreturn : c = '\r'
  · subst hreturn
    exact .short rfl
  by_cases htab : c = '\t'
  · subst htab
    exact .short rfl
  unfold escapeChar
  rw [if_neg hquote, if_neg hslash, if_neg hback, if_neg hfeed, if_neg hline, if_neg hreturn,
    if_neg htab]
  split
  · rename_i hcontrol
    exact .hex (unit?_hexDigit hcontrol)
  · rename_i hcontrol
    exact .plain hquote hslash hcontrol

theorem writesUnits_escape (cs : List Char) :
    WritesUnits (cs.flatMap escapeChar) (cs.map Char.toNat) := by
  induction cs with
  | nil => exact .nil
  | cons c cs ih => exact .cons (writesUnit_escapeChar c) ih

theorem not_isSurrogate (c : Char) :
    isHighSurrogate c.toNat = false ∧ isLowSurrogate c.toNat = false := by
  have hvalid : c.toNat < 0xD800 ∨ 0xDFFF < c.toNat ∧ c.toNat < 0x110000 := c.valid
  constructor
  · simp only [isHighSurrogate, Bool.and_eq_false_iff, decide_eq_false_iff_not]
    omega
  · simp only [isLowSurrogate, Bool.and_eq_false_iff, decide_eq_false_iff_not]
    omega

theorem joinUnits?_toNat (before cs : List Char) :
    joinUnits? before (cs.map Char.toNat) = some (before.reverse ++ cs) := by
  induction cs generalizing before with
  | nil => simp [joinUnits?]
  | cons c cs ih =>
      obtain ⟨hhigh, hlow⟩ := not_isSurrogate c
      cases cs with
      | nil => simp [joinUnits?, hhigh, hlow]
      | cons d cs =>
          have hrest := ih (c :: before)
          rw [List.map_cons] at hrest
          rw [List.map_cons, List.map_cons, joinUnits?, hhigh, hlow, Char.ofNat_toNat]
          simpa using hrest

theorem writesString_quoted (s : String) : WritesString (quoted s) (some s) := by
  have hstring := WritesString.mk (writesUnits_escape s.toList)
  rw [joinUnits?_toNat, List.reverse_nil, List.nil_append, Option.map_some,
    String.ofList_toList] at hstring
  exact hstring

/-! ## Numbers -/

theorem toDigits_ne_zero_cons (n : Nat) (d : Char) (ds : List Char) :
    Nat.toDigits 10 n ≠ '0' :: d :: ds := by
  induction n using Nat.strongRecOn generalizing d ds with
  | ind n ih =>
      intro heq
      rw [Nat.toDigits_eq_if (by decide)] at heq
      split at heq
      · simp at heq
      · rename_i hlarge
        have hfirst := ih (n / 10) (by omega)
        cases hdigits : Nat.toDigits 10 (n / 10) with
        | nil => exact Nat.toDigits_ne_nil hdigits
        | cons first more =>
            rw [hdigits, List.cons_append, List.cons.injEq] at heq
            obtain ⟨rfl, hmore⟩ := heq
            cases more with
            | nil =>
                -- A single leading zero would be all of a number that is not zero.
                have hvalue := Text.foldl_toDigits (n / 10)
                rw [hdigits] at hvalue
                simp at hvalue
                omega
            | cons second more => exact hfirst second more hdigits

theorem whole_toDigits (n : Nat) : Whole (Nat.toDigits 10 n) := by
  refine ⟨⟨Nat.toDigits_ne_nil, fun d hd => Text.isDigit_of_mem_toDigits hd⟩, ?_⟩
  have hlead := toDigits_ne_zero_cons n
  cases hdigits : Nat.toDigits 10 n with
  | nil => exact absurd hdigits Nat.toDigits_ne_nil
  | cons d ds =>
      rw [hdigits] at hlead
      by_cases hd : d = '0'
      · subst hd
        cases ds with
        | nil => exact .inl rfl
        | cons e ds => exact absurd rfl (hlead e ds)
      · exact .inr (by simpa using hd)

theorem writes_toDigits (n : Nat) : Writes (.value (.natural n)) (Nat.toDigits 10 n) := by
  have hvalue : digitsValue (Nat.toDigits 10 n) = n := Text.foldl_toDigits n
  have hwrites := Writes.natural (whole_toDigits n)
  rwa [hvalue] at hwrites

/-! ## Values -/

theorem blank_newLine (depth : Nat) : Blank (newLine depth) := by
  intro c hc
  rcases List.mem_cons.mp hc with rfl | hc
  · decide
  · rw [List.eq_of_mem_replicate hc]
    decide

/-- A value of which the printer leaves nothing out. -/
inductive Plain : Json → Prop where
  | null : Plain .null
  | bool (b : Bool) : Plain (.bool b)
  | natural (n : Nat) : Plain (.natural n)
  | string (s : String) : Plain (.string s)
  | array {items : List Json} (h : ∀ v ∈ items, Plain v) : Plain (.array items)
  | object {members : List (String × Json)} (h : ∀ m ∈ members, Plain m.2) :
      Plain (.object members)

theorem ofMembers_some (members : List (String × Json)) :
    ofMembers (members.map fun m => (some m.1, m.2)) = .object members := by
  unfold ofMembers
  rw [List.mapM_map]
  have hall : members.mapM (fun m => some m) = some members := by
    induction members with
    | nil => rfl
    | cons m members ih => simp [List.mapM_cons, ih]
  have hnamed : ((fun m : Option String × Json => m.1.map (·, m.2)) ∘
      fun m : String × Json => (some m.1, m.2)) = fun m => some m := rfl
  rw [hnamed, hall]

theorem writes_renderItems {depth : Nat} {after : List Char} (hafter : Blank after) (v : Json)
    (items : List Json) (h : ∀ w ∈ v :: items, Writes (.value w) (render depth w)) :
    Writes (.elements (v :: items))
      (newLine depth ++ (render depth v ++ (renderItems depth items ++ after))) := by
  have hblank := blank_newLine depth
  have hv := h v List.mem_cons_self
  induction items generalizing v with
  | nil => exact .lastElement (.element hblank hv hafter)
  | cons w items ih =>
      have hfirst := Writes.element hblank hv blank_nil
      have hrest := ih w (fun u hu => h u (List.mem_cons_of_mem v hu)) (h w (by simp))
      simpa [renderItems] using Writes.elements hfirst hrest

theorem writes_renderMembers {depth : Nat} {after : List Char} (hafter : Blank after)
    (m : String × Json) (members : List (String × Json))
    (h : ∀ n ∈ m :: members, Writes (.value n.2) (render depth n.2)) :
    Writes (.members ((m :: members).map fun n => (some n.1, n.2)))
      (newLine depth ++ (quoted m.1 ++ (':' :: ' ' :: (render depth m.2 ++
        (renderMembers depth members ++ after))))) := by
  have hblank := blank_newLine depth
  have hspace : Blank [' '] := by simp [Blank, isBlank]
  have hm := h m List.mem_cons_self
  have hkey := writesString_quoted m.1
  induction members generalizing m with
  | nil => exact .lastMember (.member hblank hkey blank_nil (.element hspace hm hafter))
  | cons n members ih =>
      have hfirst := Writes.member hblank hkey blank_nil (.element hspace hm blank_nil)
      have hrest := ih n (fun o ho => h o (List.mem_cons_of_mem m ho)) (h n (by simp))
        (writesString_quoted n.1)
      simpa [renderMembers] using Writes.members hfirst hrest

/-- What is printed of a value writes it. -/
theorem writes_render {v : Json} (hv : Plain v) (depth : Nat) :
    Writes (.value v) (render depth v) := by
  induction hv generalizing depth with
  | null => exact .null
  | bool b =>
      cases b with
      | true => exact .true
      | false => exact .false
  | natural n => exact writes_toDigits n
  | string s => exact .string (writesString_quoted s)
  | @array items _ ih =>
      cases items with
      | nil => exact .emptyArray blank_nil
      | cons v items =>
          have hitems := writes_renderItems (blank_newLine depth) v items
            fun w hw => ih w hw (depth + 1)
          simpa [render] using Writes.array hitems
  | @object members _ ih =>
      cases members with
      | nil => exact .emptyObject blank_nil
      | cons m members =>
          have hmembers := writes_renderMembers (blank_newLine depth) m members
            fun n hn => ih n hn (depth + 1)
          have hobject := Writes.object hmembers
          rw [ofMembers_some] at hobject
          simpa [render] using hobject

theorem written_pretty {v : Json} (hv : Plain v) : Written v v.pretty := by
  have helement := Writes.element blank_nil (writes_render hv 0) blank_nil
  rw [List.nil_append, List.append_nil] at helement
  rwa [Written, pretty, String.toList_ofList]

/-- A printed value is read back. -/
theorem parse?_pretty {v : Json} (hv : Plain v) : parse? v.pretty = some v :=
  parse?_of_written (written_pretty hv)

end Docset.Json
