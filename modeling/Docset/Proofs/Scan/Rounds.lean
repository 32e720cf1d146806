import Docset.Scan.Module

/-!
# One round of each loop of a scan

The loop over the variants of a window and the loop over the groups of a text both carry
what they have found so far. Each is restated here as one round followed by the same
loop on what is left, with nothing carried: what a loop finds does not depend on what was
found before it. A round over groups starts at a place, searches for the next grouping
call, and hands the place just past the group's name to the next round.
-/
namespace Docset.Scan
open Text (Cursor)

theorem collectVariants_eq (p : CallPattern) (stop : Nat) (c : Cursor) (found : List String) :
    collectVariants p stop c found =
      if c.offset < stop then
        match mark? p stop c.offset c.rest with
        | none => .ok found.reverse
        | some (.brace place) =>
            match matchBrace stop place with
            | .error e => .error e
            | .ok next => collectVariants p stop next found
        | some (.call args) =>
            match Literal.read? args with
            | .error e => .error e
            | .ok none => .error (.missingVariantName args.offset)
            | .ok (some literal) =>
                if literal.value.isEmpty then .error (.missingVariantName args.offset)
                else collectVariants p stop literal.stop (literal.value :: found)
      else .ok found.reverse := by
  rw [collectVariants]
  split
  · split <;> rename_i hmark <;> simp only [hmark]
    · split <;> rename_i hclose <;> simp only [hclose]
    · split <;> rename_i hread <;> simp only [hread]
  · rfl

theorem collectVariants_append (p : CallPattern) (stop : Nat) (c : Cursor)
    (found before : List String) :
    collectVariants p stop c (found ++ before) =
      (collectVariants p stop c found).map (before.reverse ++ ·) := by
  induction c, found using collectVariants.induct p stop with
  | case1 c found hlt hmark =>
      rw [collectVariants_eq, collectVariants_eq p stop c found]
      simp [hlt, hmark, Except.map]
  | case2 c found hlt place hmark e hclose =>
      rw [collectVariants_eq, collectVariants_eq p stop c found]
      simp [hlt, hmark, hclose, Except.map]
  | case3 c found hlt place hmark next hclose _ ih =>
      rw [collectVariants_eq, collectVariants_eq p stop c found]
      simp only [hlt, if_true, hmark, hclose]
      exact ih
  | case4 c found hlt args hmark e hread =>
      rw [collectVariants_eq, collectVariants_eq p stop c found]
      simp [hlt, hmark, hread, Except.map]
  | case5 c found hlt args hmark hread =>
      rw [collectVariants_eq, collectVariants_eq p stop c found]
      simp [hlt, hmark, hread, Except.map]
  | case6 c found hlt args hmark literal hread _ hempty =>
      rw [collectVariants_eq, collectVariants_eq p stop c found]
      simp [hlt, hmark, hread, hempty, Except.map]
  | case7 c found hlt args hmark literal hread _ hempty ih =>
      rw [collectVariants_eq, collectVariants_eq p stop c found]
      simp only [hlt, if_true, hmark, hread, hempty]
      exact ih
  | case8 c found hlt =>
      rw [collectVariants_eq, collectVariants_eq p stop c found]
      simp [hlt, Except.map]

def variantsFrom (p : CallPattern) (stop : Nat) (c : Cursor) : Except Error (List String) :=
  collectVariants p stop c []

theorem mark?_of_le {p : CallPattern} {stop offset : Nat} {rest : List Char}
    (h : stop ≤ offset) : mark? p stop offset rest = none := by
  cases rest with
  | nil => rfl
  | cons x rest => rw [mark?, if_pos h]

/-- One round over the variants of a window. Past its end no mark is found, so the test for the
end of the window is one with the search. -/
theorem variantsFrom_eq (p : CallPattern) (stop : Nat) (c : Cursor) :
    variantsFrom p stop c =
      match mark? p stop c.offset c.rest with
      | none => .ok []
      | some (.brace place) =>
          match matchBrace stop place with
          | .error e => .error e
          | .ok next => variantsFrom p stop next
      | some (.call args) =>
          match Literal.read? args with
          | .error e => .error e
          | .ok none => .error (.missingVariantName args.offset)
          | .ok (some literal) =>
              if literal.value.isEmpty then .error (.missingVariantName args.offset)
              else (variantsFrom p stop literal.stop).map (literal.value :: ·) := by
  have hcarry : ∀ (d : Cursor) (v : String),
      collectVariants p stop d [v] = (variantsFrom p stop d).map (v :: ·) :=
    fun d v => collectVariants_append p stop d [] [v]
  rw [variantsFrom, collectVariants_eq]
  by_cases hlt : c.offset < stop
  · rw [if_pos hlt]
    simp only [hcarry, List.reverse_nil]
    rfl
  · rw [if_neg hlt, mark?_of_le (Nat.not_lt.mp hlt)]
    rfl

/-- What a round over the variants can do if the loop succeeds: find no mark, pass a region, or
take a name. -/
theorem variantsFrom_cases {p : CallPattern} {stop : Nat} {c : Cursor} {vs : List String}
    (h : variantsFrom p stop c = .ok vs) :
    (mark? p stop c.offset c.rest = none ∧ vs = []) ∨
    (∃ place next, mark? p stop c.offset c.rest = some (.brace place) ∧
      matchBrace stop place = .ok next ∧ next.rest.length < c.rest.length ∧
      variantsFrom p stop next = .ok vs) ∨
    (∃ args literal ws, mark? p stop c.offset c.rest = some (.call args) ∧
      Literal.read? args = .ok (some literal) ∧ literal.value ≠ "" ∧
      literal.stop.rest.length < c.rest.length ∧
      variantsFrom p stop literal.stop = .ok ws ∧ vs = literal.value :: ws) := by
  rw [variantsFrom_eq] at h
  split at h
  · rename_i hmark
    cases h
    exact .inl ⟨hmark, rfl⟩
  · rename_i place hmark
    split at h
    · cases h
    · rename_i next hclose
      have hshorter := Nat.lt_of_lt_of_le (matchBrace_length_lt hclose)
        (mark?_brace_length_le hmark)
      exact .inr (.inl ⟨place, next, hmark, hclose, hshorter, h⟩)
  · rename_i args hmark
    split at h
    · cases h
    · cases h
    · rename_i literal hread
      have hshorter := Nat.lt_trans (Literal.read?_length_lt hread) (mark?_call_length_lt hmark)
      split at h
      · cases h
      · rename_i hempty
        cases hrest : variantsFrom p stop literal.stop with
        | error e =>
            rw [hrest] at h
            cases h
        | ok ws =>
            rw [hrest] at h
            cases h
            exact .inr (.inr ⟨args, literal, ws, hmark, hread, by simpa using hempty, hshorter,
              hrest, rfl⟩)

/-- Where the window of a group ends whose name ends at `c`. -/
def windowStop (o : Options) (length : Nat) (c : Cursor) : Nat :=
  match o.groupPattern.find? length c.offset c.rest with
  | none => length
  | some following => following.start

theorem collectGroups_eq (o : Options) (length : Nat) (next : CallMatch)
    (found : List Story.Group) :
    collectGroups o length next found =
      match Literal.read? next.args with
      | .error e => .error e
      | .ok none => .error (.missingGroupName next.args.offset)
      | .ok (some name) =>
          match variantsFrom o.variantPattern (windowStop o length name.stop) name.stop with
          | .error e => .error e
          | .ok variants =>
              match o.groupPattern.find? length name.stop.offset name.stop.rest with
              | none => .ok (⟨name.value, variants⟩ :: found).reverse
              | some following =>
                  collectGroups o length following (⟨name.value, variants⟩ :: found) := by
  rw [collectGroups]
  split <;> rename_i hread <;> simp only [hread]
  rename_i name
  split
  · rename_i hfind
    have hstop : windowStop o length name.stop = length := by rw [windowStop, hfind]
    rw [hstop, hfind]
    rfl
  · rename_i following hfind
    have hstop : windowStop o length name.stop = following.start := by rw [windowStop, hfind]
    rw [hstop, hfind]
    rfl

theorem collectGroups_append (o : Options) (length : Nat) (next : CallMatch)
    (found before : List Story.Group) :
    collectGroups o length next (found ++ before) =
      (collectGroups o length next found).map (before.reverse ++ ·) := by
  induction hn : next.args.rest.length using Nat.strongRecOn generalizing next found with
  | ind n ih =>
      rw [collectGroups_eq, collectGroups_eq o length next found]
      split
      · rfl
      · rfl
      · rename_i name hread
        split
        · rfl
        · rename_i variants hvariants
          split
          · simp [Except.map]
          · rename_i following hfind
            have hshorter := Nat.lt_trans (CallPattern.find?_length_lt hfind)
              (Literal.read?_length_lt hread)
            exact ih _ (hn ▸ hshorter) following (⟨name.value, variants⟩ :: found) rfl

/-- The groups whose calls start at `c` or later. -/
def groupsFrom (o : Options) (length : Nat) (c : Cursor) : Except Error (List Story.Group) :=
  match o.groupPattern.find? length c.offset c.rest with
  | none => .ok []
  | some next => collectGroups o length next []

theorem groupsFrom_eq (o : Options) (length : Nat) (c : Cursor) :
    groupsFrom o length c =
      match o.groupPattern.find? length c.offset c.rest with
      | none => .ok []
      | some next =>
          match Literal.read? next.args with
          | .error e => .error e
          | .ok none => .error (.missingGroupName next.args.offset)
          | .ok (some name) =>
              match variantsFrom o.variantPattern (windowStop o length name.stop) name.stop with
              | .error e => .error e
              | .ok variants =>
                  (groupsFrom o length name.stop).map (⟨name.value, variants⟩ :: ·) := by
  have hcarry : ∀ (m : CallMatch) (g : Story.Group),
      collectGroups o length m [g] = (collectGroups o length m []).map (g :: ·) :=
    fun m g => collectGroups_append o length m [] [g]
  rw [groupsFrom]
  split
  · rfl
  · rw [collectGroups_eq]
    split
    · rfl
    · rfl
    · split
      · rfl
      · rw [groupsFrom]
        split
        · rfl
        · exact hcarry _ _

/-- What a round over the groups can do if the loop succeeds: find no grouping call, or take a
group. -/
theorem groupsFrom_cases {o : Options} {length : Nat} {c : Cursor} {gs : List Story.Group}
    (h : groupsFrom o length c = .ok gs) :
    (o.groupPattern.find? length c.offset c.rest = none ∧ gs = []) ∨
    ∃ next name variants rest, o.groupPattern.find? length c.offset c.rest = some next ∧
      Literal.read? next.args = .ok (some name) ∧ name.stop.rest.length < c.rest.length ∧
      variantsFrom o.variantPattern (windowStop o length name.stop) name.stop = .ok variants ∧
      groupsFrom o length name.stop = .ok rest ∧ gs = ⟨name.value, variants⟩ :: rest := by
  rw [groupsFrom_eq] at h
  split at h
  · rename_i hfind
    cases h
    exact .inl ⟨hfind, rfl⟩
  · rename_i next hfind
    split at h
    · cases h
    · cases h
    · rename_i name hread
      have hshorter := Nat.lt_trans (Literal.read?_length_lt hread)
        (CallPattern.find?_length_lt hfind)
      split at h
      · cases h
      · rename_i variants hvariants
        cases hrest : groupsFrom o length name.stop with
        | error e =>
            rw [hrest] at h
            cases h
        | ok rest =>
            rw [hrest] at h
            cases h
            exact .inr ⟨next, name, variants, rest, hfind, hread, hshorter, hvariants, hrest, rfl⟩

theorem scanUnlimited_eq (o : Options) (text : String) :
    scanUnlimited o text =
      groupsFrom o (Text.byteLength text.toList) ⟨0, text.toList⟩ := rfl

/-- The length of the text is within the limit, if there is one. -/
def Options.Admits (o : Options) (text : String) : Prop :=
  ∀ limit, o.maxInputLength = some limit → text.utf8ByteSize ≤ limit.toNat

theorem scan_eq_scanUnlimited {o : Options} {text : String} (h : o.Admits text) :
    scan o text = scanUnlimited o text := by
  rw [scan]
  split
  · rfl
  · rename_i limit hlimit
    exact if_neg (Nat.not_lt.mpr (h limit hlimit))

theorem admits_of_scan_eq_ok {o : Options} {text : String} {gs : List Story.Group}
    (h : scan o text = .ok gs) : o.Admits text := by
  intro limit hlimit
  rw [scan, hlimit] at h
  simp only at h
  split at h
  · cases h
  · omega

end Docset.Scan
