import Docset.Proofs.Files.Path
import Mathlib.Data.List.DropRight

/-!
# Words and items, joined and divided again

A line is divided into words or items. Here is what such parts look like, and that a line
made of parts that look like this is divided into the same parts again. Dividing at a
separator undoes joining with it as long as no part has a separator in it; white space
around an item is dropped once and for all.
-/
namespace Docset.Text

variable {separates : Char → Bool} {cs : List Char}

theorem split_intercalate {s : Char} (hs : separates s) {parts : List (List Char)}
    (hne : parts ≠ []) (hparts : ∀ part ∈ parts, ∀ c ∈ part, separates c = false) :
    split separates ([s].intercalate parts) = parts := by
  induction parts with
  | nil => exact absurd rfl hne
  | cons part parts ih =>
      have hpart := split_of_none (hparts part (by simp))
      cases parts with
      | nil => simpa using hpart
      | cons next parts =>
          have hrest := ih (by simp) fun p hp => hparts p (List.mem_cons_of_mem _ hp)
          rw [List.intercalate_cons_cons, List.append_assoc, List.singleton_append,
            split_append hs, hpart, hrest, List.singleton_append]

/-! ## Trimming -/

theorem trim_eq_rdropWhile (cs : List Char) :
    trim cs = (cs.dropWhile isWhiteSpace).rdropWhile isWhiteSpace := rfl

theorem dropWhile_trim (cs : List Char) : (trim cs).dropWhile isWhiteSpace = trim cs := by
  have hpre : trim cs <+: cs.dropWhile isWhiteSpace := List.rdropWhile_prefix _ _
  cases htrim : trim cs with
  | nil => rfl
  | cons c rest =>
      -- The first character that is left is the one at which the dropping ended.
      rw [htrim] at hpre
      obtain ⟨tail, htail⟩ := hpre
      have hkept := List.dropWhile_idempotent isWhiteSpace cs
      rw [← htail, List.cons_append, List.dropWhile_cons] at hkept
      split at hkept
      · have hlength := congrArg List.length hkept
        have hle := (List.dropWhile_suffix isWhiteSpace (l := rest ++ tail)).length_le
        rw [List.length_cons] at hlength
        omega
      · rename_i hc
        rw [List.dropWhile_cons_of_neg hc]

theorem trim_trim (cs : List Char) : trim (trim cs) = trim cs := by
  have hend := List.rdropWhile_idempotent isWhiteSpace (cs.dropWhile isWhiteSpace)
  rw [trim_eq_rdropWhile (trim cs), dropWhile_trim, trim_eq_rdropWhile cs, hend]

theorem mem_of_mem_trim {c : Char} (h : c ∈ trim cs) : c ∈ cs := by
  have hinner : c ∈ cs.dropWhile isWhiteSpace := (List.rdropWhile_prefix _ _).subset h
  exact (List.dropWhile_suffix _).subset hinner

@[simp] theorem trimString_trimString (s : String) : trimString (trimString s) = trimString s := by
  simp [trimString, trim_trim]

theorem trimString_isEmpty_iff {s : String} :
    (trimString s).isEmpty = true ↔ ∀ c ∈ s.toList, isWhiteSpace c = true := by
  rw [String.isEmpty_iff, trimString, String.ofList_eq_empty_iff, trim_eq_rdropWhile,
    List.rdropWhile_eq_nil_iff, ← List.dropWhile_eq_nil_iff, List.dropWhile_idempotent,
    List.dropWhile_eq_nil_iff]

theorem filter_nonempty {ss : List String} (h : ∀ s ∈ ss, s ≠ "") :
    (ss.map String.toList).filter (!·.isEmpty) = ss.map String.toList := by
  apply List.filter_eq_self.mpr
  intro part hpart
  obtain ⟨s, hs, rfl⟩ := List.mem_map.mp hpart
  simpa using h s hs

/-! ## Words -/

def IsWord (s : String) : Prop := s ≠ "" ∧ ∀ c ∈ s.toList, isWhiteSpace c = false

instance (s : String) : Decidable (IsWord s) := inferInstanceAs (Decidable (_ ∧ _))

theorem isWord_of_mem_words {line w : String} (h : w ∈ words line) : IsWord w := by
  unfold words at h
  obtain ⟨part, hpart, rfl⟩ := List.mem_map.mp h
  obtain ⟨hmem, hne⟩ := List.mem_filter.mp hpart
  constructor
  · simpa using hne
  · rw [String.toList_ofList]
    exact separates_of_mem_split hmem

theorem words_intercalate {ws : List String} (h : ∀ w ∈ ws, IsWord w) :
    words (" ".intercalate ws) = ws := by
  by_cases hne : ws = []
  · subst hne
    rfl
  have hsplit : split isWhiteSpace (" ".intercalate ws).toList = ws.map String.toList := by
    rw [String.toList_intercalate]
    apply split_intercalate (s := ' ') (by decide) (by simpa using hne)
    intro part hpart
    obtain ⟨w, hw, rfl⟩ := List.mem_map.mp hpart
    exact (h w hw).2
  unfold words
  rw [hsplit, filter_nonempty fun w hw => (h w hw).1, List.map_map]
  simp [Function.comp_def]

/-! ## Items -/

def IsItem (s : String) : Prop := s ≠ "" ∧ trimString s = s ∧ ',' ∉ s.toList

instance (s : String) : Decidable (IsItem s) := inferInstanceAs (Decidable (_ ∧ _ ∧ _))

theorem isItem_of_mem_items {line s : String} (h : s ∈ items line) : IsItem s := by
  unfold items at h
  obtain ⟨part, hpart, rfl⟩ := List.mem_map.mp h
  obtain ⟨hmem, hne⟩ := List.mem_filter.mp hpart
  obtain ⟨raw, hraw, rfl⟩ := List.mem_map.mp hmem
  have hcomma : ',' ∉ raw := fun hc => by simpa using separates_of_mem_split hraw ',' hc
  refine ⟨by simpa using hne, by simp [trimString, trim_trim], ?_⟩
  rw [String.toList_ofList]
  exact fun hc => hcomma (mem_of_mem_trim hc)

theorem items_intercalate {ss : List String} (h : ∀ s ∈ ss, IsItem s) :
    items (",".intercalate ss) = ss := by
  by_cases hne : ss = []
  · subst hne
    rfl
  have hsplit : split (· = ',') (",".intercalate ss).toList = ss.map String.toList := by
    rw [String.toList_intercalate]
    apply split_intercalate (s := ',') (by decide) (by simpa using hne)
    intro part hpart c hc
    obtain ⟨s, hs, rfl⟩ := List.mem_map.mp hpart
    simpa using fun heq : c = ',' => (h s hs).2.2 (heq ▸ hc)
  have htrim : (ss.map String.toList).map trim = ss.map String.toList := by
    rw [List.map_map]
    apply List.map_congr_left
    intro s hs
    have hself := congrArg String.toList (h s hs).2.1
    rwa [trimString, String.toList_ofList] at hself
  unfold items
  rw [hsplit, htrim, filter_nonempty fun s hs => (h s hs).1, List.map_map]
  simp [Function.comp_def]

end Docset.Text
