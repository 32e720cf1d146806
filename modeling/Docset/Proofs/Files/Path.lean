import Docset.Files.Path
import Mathlib.Data.List.TakeWhile

/-!
# The pieces of a path

A path is looked up piece by piece, so what is said about a path seen from a folder, or
about one with idle slashes at its end, has to be said about pieces. Dividing a text at
slashes distributes over each slash; a name has no slash in it and is a piece of its own.
-/
namespace Docset

namespace Text

variable {separates : Char → Bool}

theorem splitAux_append {s : Char} (hs : separates s) (before after : List Char) :
    ∀ (word : List Char) (parts : List (List Char)),
      splitAux separates word parts (before ++ s :: after) =
        splitAux separates word parts before ++ split separates after := by
  have hparts : ∀ (cs word : List Char) (parts : List (List Char)),
      splitAux separates word parts cs = parts.reverse ++ splitAux separates word [] cs := by
    intro cs
    induction cs with
    | nil => simp [splitAux]
    | cons c cs ih =>
        intro word parts
        simp only [splitAux]
        split
        · rw [ih, ih [] [word.reverse]]
          simp
        · exact ih _ _
  induction before with
  | nil =>
      intro word parts
      calc splitAux separates word parts (s :: after)
          = splitAux separates [] (word.reverse :: parts) after := by simp [splitAux, hs]
        _ = _ := hparts _ _ _
  | cons c before ih =>
      intro word parts
      rw [List.cons_append, splitAux, splitAux]
      split
      · exact ih _ _
      · exact ih _ _

theorem split_append {s : Char} (hs : separates s) (before after : List Char) :
    split separates (before ++ s :: after) = split separates before ++ split separates after :=
  splitAux_append hs before after [] []

theorem splitAux_of_none {cs : List Char} (h : ∀ c ∈ cs, separates c = false) :
    ∀ (word : List Char) (parts : List (List Char)),
      splitAux separates word parts cs = parts.reverse ++ [word.reverse ++ cs] := by
  induction cs with
  | nil => simp [splitAux]
  | cons c cs ih =>
      intro word parts
      have hc : separates c = false := h c (by simp)
      rw [splitAux, if_neg (by simp [hc]), ih (fun d hd => h d (by simp [hd]))]
      simp

theorem split_of_none {cs : List Char} (h : ∀ c ∈ cs, separates c = false) :
    split separates cs = [cs] := splitAux_of_none h [] []

theorem separates_of_mem_splitAux {cs : List Char} :
    ∀ {word : List Char} {parts : List (List Char)}, (∀ c ∈ word, separates c = false) →
      (∀ part ∈ parts, ∀ c ∈ part, separates c = false) →
      ∀ part ∈ splitAux separates word parts cs, ∀ c ∈ part, separates c = false := by
  induction cs with
  | nil =>
      intro word parts hword hparts part hpart c hc
      rw [splitAux, List.mem_reverse, List.mem_cons] at hpart
      rcases hpart with rfl | hpart
      · exact hword c (List.mem_reverse.mp hc)
      · exact hparts part hpart c hc
  | cons d cs ih =>
      intro word parts hword hparts
      rw [splitAux]
      split
      · refine ih (by simp) ?_
        intro part hpart c hc
        rcases List.mem_cons.mp hpart with rfl | hpart
        · exact hword c (List.mem_reverse.mp hc)
        · exact hparts part hpart c hc
      · rename_i hd
        refine ih ?_ hparts
        intro c hc
        rcases List.mem_cons.mp hc with rfl | hc
        · simpa using hd
        · exact hword c hc

theorem separates_of_mem_split {cs part : List Char} (h : part ∈ split separates cs) :
    ∀ c ∈ part, separates c = false :=
  separates_of_mem_splitAux (by simp) (by simp) part h

end Text

namespace Path

@[simp] theorem pieces_empty : (⟨""⟩ : Path).pieces = [""] := rfl

theorem pieces_append_slash (a b : String) :
    (⟨a ++ "/" ++ b⟩ : Path).pieces = (⟨a⟩ : Path).pieces ++ (⟨b⟩ : Path).pieces := by
  have htext : (a ++ "/" ++ b).toList = a.toList ++ '/' :: b.toList := by simp
  unfold pieces
  rw [htext, Text.split_append (by simp), List.map_append]

theorem slash_notMem_of_mem_pieces {p : Path} {piece : String} (h : piece ∈ p.pieces) :
    '/' ∉ piece.toList := by
  obtain ⟨cs, hcs, rfl⟩ := List.mem_map.mp h
  intro hmem
  rw [String.toList_ofList] at hmem
  simpa using Text.separates_of_mem_split hcs '/' hmem

theorem pieces_of_slash_notMem {name : String} (h : '/' ∉ name.toList) :
    (⟨name⟩ : Path).pieces = [name] := by
  have hcs : ∀ c ∈ name.toList, decide (c = '/') = false := by
    intro c hc
    simpa using fun heq : c = '/' => h (heq ▸ hc)
  simp [pieces, Text.split_of_none hcs]

theorem isAbsolute_of_slash_notMem {name : String} (h : '/' ∉ name.toList) :
    (⟨name⟩ : Path).isAbsolute = false := by
  have : name.toList.head? ≠ some '/' := fun hhead => h (List.mem_of_mem_head? hhead)
  simpa [isAbsolute] using this

theorem pieces_ne_nil (p : Path) : p.pieces ≠ [] := by
  have hsplit : ∀ (cs word : List Char) (parts : List (List Char)),
      Text.splitAux (· = '/') word parts cs ≠ [] := by
    intro cs
    induction cs with
    | nil => simp [Text.splitAux]
    | cons c cs ih =>
        intro word parts
        rw [Text.splitAux]
        split
        · exact ih _ _
        · exact ih _ _
  simpa [pieces, Text.split] using hsplit p.text.toList [] []

theorem eq_append_slash {text : String} (h : text.toList.getLast? = some '/') :
    ∃ before, text = before ++ "/" := by
  obtain ⟨cs, hcs⟩ := List.getLast?_eq_some_iff.mp h
  refine ⟨String.ofList cs, ?_⟩
  rw [← String.toList_inj]
  simpa using hcs

/-- The pieces of a path seen from a folder: an empty piece at the end of the folder's path gives
way to them. -/
theorem pieces_join_of_relative {p q : Path} (hp : p.text ≠ "") (hq : q.isAbsolute = false) :
    ∃ ps blanks, p.pieces = ps ++ blanks ∧ (∀ piece ∈ blanks, piece = "") ∧
      (p.join q).pieces = ps ++ q.pieces := by
  by_cases hlast : p.text.toList.getLast? = some '/'
  · obtain ⟨before, hbefore⟩ := eq_append_slash hlast
    refine ⟨(⟨before⟩ : Path).pieces, [""], ?_, by simp, ?_⟩
    · have := pieces_append_slash before ""
      rw [String.append_empty, ← hbefore] at this
      exact this
    · have hjoin : p.join q = ⟨before ++ "/" ++ q.text⟩ := by
        simp [join, hq, hbefore]
      rw [hjoin, pieces_append_slash]
  · refine ⟨p.pieces, [], by simp, by simp, ?_⟩
    have hjoin : p.join q = ⟨p.text ++ "/" ++ q.text⟩ := by
      simp [join, hq, hlast, hp]
    rw [hjoin, pieces_append_slash]

theorem pieces_join {p : Path} {name : String} (hp : p.text ≠ "") (hname : '/' ∉ name.toList) :
    ∃ ps blanks, p.pieces = ps ++ blanks ∧ (∀ piece ∈ blanks, piece = "") ∧
      (p.join ⟨name⟩).pieces = ps ++ [name] := by
  have hjoin := pieces_join_of_relative hp (isAbsolute_of_slash_notMem hname)
  rwa [pieces_of_slash_notMem hname] at hjoin

theorem isAbsolute_join_of_relative {p q : Path} (hp : p.text ≠ "")
    (hq : q.isAbsolute = false) : (p.join q).isAbsolute = p.isAbsolute := by
  obtain ⟨c, cs, hcs⟩ : ∃ c cs, p.text.toList = c :: cs := by
    apply List.exists_cons_of_ne_nil
    simpa using hp
  by_cases hlast : p.text.toList.getLast? = some '/'
  · have hjoin : p.join q = ⟨p.text ++ q.text⟩ := by simp [join, hq, hlast]
    simp [hjoin, isAbsolute, hcs]
  · have hjoin : p.join q = ⟨p.text ++ "/" ++ q.text⟩ := by simp [join, hq, hlast, hp]
    simp [hjoin, isAbsolute, hcs]

theorem isAbsolute_join {p : Path} {name : String} (hp : p.text ≠ "")
    (hname : '/' ∉ name.toList) : (p.join ⟨name⟩).isAbsolute = p.isAbsolute :=
  isAbsolute_join_of_relative hp (isAbsolute_of_slash_notMem hname)

theorem text_ne_empty_of_isAbsolute {p : Path} (h : p.isAbsolute) : p.text ≠ "" := by
  intro hempty
  simp [isAbsolute, hempty] at h

theorem isAbsolute_join_left {p : Path} (q : Path) (h : p.isAbsolute) : (p.join q).isAbsolute := by
  by_cases hq : q.isAbsolute
  · rwa [join, if_pos hq]
  · rwa [isAbsolute_join_of_relative (text_ne_empty_of_isAbsolute h) (by simpa using hq)]

/-- The slashes that are dropped from the end of a path, as a text. -/
theorem text_withoutEndSlashes (p : Path) :
    ∃ n, p.text.toList = p.withoutEndSlashes.text.toList ++ List.replicate n '/' ∧
      (p.text ≠ "" → p.withoutEndSlashes.text ≠ "") := by
  unfold withoutEndSlashes
  split
  · exact ⟨0, by simp, id⟩
  · rename_i hkept
    have hsplit : p.text.toList =
        (p.text.toList.reverse.dropWhile (· = '/')).reverse ++
          (p.text.toList.reverse.takeWhile (· = '/')).reverse := by
      rw [← List.reverse_append, List.takeWhile_append_dropWhile, List.reverse_reverse]
    obtain ⟨n, hn⟩ : ∃ n, p.text.toList.reverse.takeWhile (· = '/') = List.replicate n '/' := by
      refine ⟨_, List.eq_replicate_iff.mpr ⟨rfl, fun c hc => ?_⟩⟩
      simpa using List.mem_takeWhile_imp hc
    refine ⟨n, ?_, fun _ hempty => ?_⟩
    · simpa [hn] using hsplit
    · exact hkept (by simpa using congrArg String.toList hempty)

theorem pieces_append_slashes (text : String) (n : Nat) :
    (⟨String.ofList (text.toList ++ List.replicate n '/')⟩ : Path).pieces =
      (⟨text⟩ : Path).pieces ++ List.replicate n "" := by
  induction n with
  | zero => simp
  | succ n ih =>
      have htext : String.ofList (text.toList ++ List.replicate (n + 1) '/') =
          String.ofList (text.toList ++ List.replicate n '/') ++ "/" ++ "" := by
        rw [← String.toList_inj]
        simp [List.replicate_succ']
      rw [htext, pieces_append_slash, ih, pieces_empty, List.append_assoc,
        ← List.replicate_succ']

theorem pieces_withoutEndSlashes (p : Path) :
    ∃ n, p.pieces = p.withoutEndSlashes.pieces ++ List.replicate n "" := by
  obtain ⟨n, hn, -⟩ := text_withoutEndSlashes p
  refine ⟨n, ?_⟩
  have hp : p = ⟨String.ofList (p.withoutEndSlashes.text.toList ++ List.replicate n '/')⟩ := by
    rw [← hn, String.ofList_toList]
  have := pieces_append_slashes p.withoutEndSlashes.text n
  rw [← hp] at this
  exact this

theorem isAbsolute_withoutEndSlashes (p : Path) :
    p.withoutEndSlashes.isAbsolute = p.isAbsolute := by
  obtain ⟨n, hn, hne⟩ := text_withoutEndSlashes p
  by_cases hp : p.text = ""
  · have : p.withoutEndSlashes = p := by simp [withoutEndSlashes, hp]
    rw [this]
  · obtain ⟨c, cs, hcs⟩ : ∃ c cs, p.withoutEndSlashes.text.toList = c :: cs := by
      apply List.exists_cons_of_ne_nil
      simpa using hne hp
    rw [hcs] at hn
    simp [isAbsolute, hn, hcs]

theorem text_join {p : Path} {name : String} (hname : '/' ∉ name.toList) :
    ∃ before, (p.join ⟨name⟩).text = before ++ name := by
  have habs := isAbsolute_of_slash_notMem hname
  unfold join
  rw [if_neg (by simp [habs])]
  split
  · exact ⟨p.text, rfl⟩
  · exact ⟨p.text ++ "/", rfl⟩

theorem withoutEndSlashes_join {p : Path} {name : String} (hne : name ≠ "")
    (hname : '/' ∉ name.toList) : (p.join ⟨name⟩).withoutEndSlashes = p.join ⟨name⟩ := by
  obtain ⟨before, hbefore⟩ := text_join (p := p) hname
  obtain ⟨cs, c, hcs⟩ : ∃ cs c, name.toList = cs ++ [c] := by
    have hnil : name.toList ≠ [] := by simpa using hne
    exact ⟨_, _, (List.dropLast_concat_getLast hnil).symm⟩
  have hc : c ≠ '/' := fun heq => hname (by simp [hcs, heq])
  have hrev : (p.join ⟨name⟩).text.toList.reverse = c :: (before.toList ++ cs).reverse := by
    simp [hbefore, hcs]
  unfold withoutEndSlashes
  rw [hrev, List.dropWhile_cons_of_neg (by simpa using hc)]
  have : (c :: (before.toList ++ cs).reverse).reverse = (p.join ⟨name⟩).text.toList := by
    rw [← hrev, List.reverse_reverse]
  simp only [this, String.ofList_toList]

theorem text_join_ne_empty {p : Path} {name : String} (hne : name ≠ "")
    (hname : '/' ∉ name.toList) : (p.join ⟨name⟩).text ≠ "" := by
  obtain ⟨before, hbefore⟩ := text_join (p := p) hname
  intro hempty
  rw [hbefore, String.append_eq_empty_iff] at hempty
  exact hne hempty.2

theorem text_join_empty_ne {p : Path} (hp : p.text ≠ "") : (p.join ⟨""⟩).text ≠ "" := by
  unfold join
  rw [if_neg (by simp [isAbsolute])]
  split
  · simpa using hp
  · simp

end Path

end Docset
