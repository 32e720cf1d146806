import Docset.Proofs.Text.ByteOrder
import Docset.Proofs.Text.Markup
import Mathlib.Data.List.Basic

/-!
# What is on the index page

A reader of the page finds the same tags on every page with as many entries. Between them
it finds the addresses and the display paths as they are in the manifest, whatever
characters they are made of, one line for each entry and in the order of the manifest. So
a page shows which manifest it was made from.
-/
namespace Docset

/-! ## Counting a pattern -/

namespace Text

/-- The number of places at which a pattern stands in a text. -/
def occurrences (pattern : List Char) : List Char → Nat
  | [] => 0
  | c :: cs => occurrences pattern cs + if pattern.isPrefixOf (c :: cs) then 1 else 0

variable {pattern cs : List Char}

theorem occurrences_append_of_not_mem {c : Char} (h : c ∉ cs) (more rest : List Char) :
    occurrences (c :: more) (cs ++ rest) = occurrences (c :: more) rest := by
  induction cs with
  | nil => rfl
  | cons d cs ih =>
      rw [List.mem_cons, not_or] at h
      have hnone : (c :: more).isPrefixOf (d :: (cs ++ rest)) = false := by
        simp [List.isPrefixOf, h.1]
      rw [List.cons_append, occurrences, hnone, ih h.2]
      rfl

theorem isPrefixOf_append (hne : cs ≠ []) (h : cs.getLast?.any pattern.dropLast.contains = false)
    (rest : List Char) : pattern.isPrefixOf (cs ++ rest) = pattern.isPrefixOf cs := by
  rw [Bool.eq_iff_iff, List.isPrefixOf_iff_prefix, List.isPrefixOf_iff_prefix]
  constructor
  · intro hpre
    rcases List.prefix_or_prefix_of_prefix hpre (List.prefix_append cs rest) with hcs | ⟨more, rfl⟩
    · exact hcs
    · cases more with
      | nil => exact (List.append_nil cs).symm ▸ List.prefix_refl cs
      | cons d more =>
          -- The last character of the text would be one of the pattern, and not its last one.
          have hlast : cs.getLast hne ∈ (cs ++ d :: more).dropLast := by
            rw [List.dropLast_append_of_ne_nil (List.cons_ne_nil d more)]
            exact List.mem_append_left _ (List.getLast_mem hne)
          rw [List.getLast?_eq_some_getLast hne, Option.any_some,
            List.contains_iff_mem.mpr hlast] at h
          cases h
  · intro hpre
    exact hpre.trans (List.prefix_append cs rest)

/-- A text holds a pattern so many times, and does not end within it. -/
def Counts (pattern cs : List Char) (n : Nat) : Prop :=
  occurrences pattern cs = n ∧ cs.getLast?.any pattern.dropLast.contains = false

instance (pattern cs : List Char) (n : Nat) : Decidable (Counts pattern cs n) :=
  inferInstanceAs (Decidable (_ ∧ _))

theorem Counts.append {n : Nat} (h : Counts pattern cs n) (rest : List Char) :
    occurrences pattern (cs ++ rest) = n + occurrences pattern rest := by
  obtain ⟨rfl, hlast⟩ := h
  induction cs with
  | nil => simp [occurrences]
  | cons c cs ih =>
      have hrest : cs.getLast?.any pattern.dropLast.contains = false := by
        cases cs with
        | nil => rfl
        | cons d cs => rwa [List.getLast?_cons_cons] at hlast
      have hhere := isPrefixOf_append (List.cons_ne_nil c cs) hlast rest
      rw [List.cons_append] at hhere ⊢
      rw [occurrences, occurrences, hhere, ih hrest]
      omega

end Text

namespace Manifest
open Markup

variable {lead : String} {entries : List (String × String)}

/-! ## The parts of the page -/

def startParts : List Part :=
  [.text "", .tag "!DOCTYPE HTML", .text "\n", .tag "html lang=", .value "en", .tag "",
    .text "\n  ", .tag "head", .text "\n    ", .tag "meta charset=", .value "UTF-8", .tag "/",
    .text "\n    ", .tag "meta name=", .value "viewport", .tag " content=",
    .value "width=device-width, user-scalable=no, minimum-scale=1.0, maximum-scale=1.0", .tag "/",
    .text "\n    ", .tag "link media=", .value "all", .tag " rel=", .value "stylesheet",
    .tag " href="]

def styleSheet : String := "css/github-markdown.min.css"

def middleParts : List Part :=
  [.tag " type=", .value "text/css", .tag " /", .text "\n    ", .tag "title", .text "Components",
    .tag "/title", .text "\n  ", .tag "/head", .text "\n  ", .tag "body style=",
    .value "margin: 0; margin-bottom: 24px;", .tag "", .text "\n    ", .tag "div class=",
    .value "markdown-body", .tag " style=", .value "margin: 0 auto; padding: 0 40px", .tag "",
    .text "\n      ", .tag "h1", .text "Components", .tag "/h1"]

def rowParts (lead : String) (entry : String × String) : List Part :=
  [.text "\n      \n        ", .tag "li", .text "", .tag "a href=", .value (lead ++ entry.2),
    .tag "", .text entry.1, .tag "/a", .text "", .tag "/li"]

def bodyParts (lead : String) (entries : List (String × String)) : List Part :=
  match entries with
  | [] => [.text "\n      \n      ", .tag "p", .text "No stories found.", .tag "/p"]
  | _ =>
      [.text "\n      \n      ", .tag "ul"] ++ entries.flatMap (rowParts lead) ++
        [.text "\n      \n      ", .tag "/ul"]

def endParts : List Part :=
  [.text "\n      \n    ", .tag "/div", .text "\n  ", .tag "/body", .text "\n", .tag "/html",
    .text ""]

def pageParts (lead : String) (entries : List (String × String)) : List Part :=
  startParts ++ [.value (lead ++ styleSheet)] ++ middleParts ++ bodyParts lead entries ++ endParts

def lineEnd : Context × List Char := (.text, [' ', ' ', ' ', ' ', ' ', ' ', '\n'])

theorem reads_pageStart : Reads (.text, []) pageStart.toList (.value '"', []) startParts := by
  apply Reads.of_fixed rfl
  unfold pageStart
  rw [String.toList_append, String.toList_append, String.toList_ofList, String.toList_ofList,
    String.toList_ofList]
  decide +kernel

/-- The style sheet has an address of which nothing is escaped. -/
theorem pageMiddle_eq : pageMiddle.toList =
    escaped styleSheet ++ ['"'] ++ pageMiddle.toList.drop 28 := by
  unfold pageMiddle escaped styleSheet
  repeat rw [String.toList_append]
  repeat rw [String.toList_ofList]
  rfl

theorem reads_pageMiddle :
    Reads (.tag, []) (pageMiddle.toList.drop 28) lineEnd middleParts := by
  apply Reads.of_fixed rfl
  unfold pageMiddle
  repeat rw [String.toList_append]
  repeat rw [String.toList_ofList]
  decide +kernel

theorem row_eq (lead : String) (entry : String × String) :
    row lead entry = "\n        <li><a href=\"".toList ++ (escaped (lead ++ entry.2) ++ ['"']) ++
      ['>'] ++ (escaped entry.1 ++ ['<']) ++ "/a></li>\n      ".toList := by
  unfold row
  rw [String.toList_ofList, String.toList_ofList, String.toList_ofList, String.toList_ofList,
    escaped_append]
  simp only [List.append_assoc, List.cons_append, List.nil_append]

theorem reads_row (lead : String) (entry : String × String) :
    Reads lineEnd (row lead entry) lineEnd (rowParts lead entry) := by
  have hopen : Reads lineEnd "\n        <li><a href=\"".toList (.value '"', [])
      [.text "\n      \n        ", .tag "li", .text "", .tag "a href="] := by
    rw [String.toList_ofList]
    exact Reads.of_fixed rfl ⟨rfl, by decide, rfl⟩
  have haddress := Reads.escaped (.value '"') '"' (.inr rfl) rfl (lead ++ entry.2)
  have hend : Reads (.tag, []) ['>'] (.text, []) [.tag ""] := Reads.of_fixed rfl (by decide)
  have hpath := Reads.escaped .text '<' (.inl rfl) rfl entry.1
  have hclose : Reads (.tag, []) "/a></li>\n      ".toList lineEnd
      [.tag "/a", .text "", .tag "/li"] := by
    rw [String.toList_ofList]
    exact Reads.of_fixed rfl ⟨rfl, by decide, rfl⟩
  have hrow := (((hopen.trans haddress).trans hend).trans hpath).trans hclose
  rw [Context.plainPart, String.ofList_toList, Context.plainPart, String.ofList_toList] at hrow
  rw [row_eq]
  exact hrow

theorem reads_rows (lead : String) (entries : List (String × String)) :
    Reads lineEnd (entries.flatMap (row lead)) lineEnd (entries.flatMap (rowParts lead)) := by
  induction entries with
  | nil => exact Reads.refl lineEnd
  | cons entry entries ih =>
      rw [List.flatMap_cons, List.flatMap_cons]
      exact (reads_row lead entry).trans ih

theorem reads_pageBody (lead : String) (entries : List (String × String)) :
    Reads lineEnd (pageBody lead entries) lineEnd (bodyParts lead entries) := by
  cases entries with
  | nil =>
      have hremark : Reads lineEnd "\n      <p>No stories found.</p>\n      ".toList lineEnd
          [.text "\n      \n      ", .tag "p", .text "No stories found.", .tag "/p"] := by
        apply Reads.of_fixed rfl
        rw [String.toList_ofList]
        decide +kernel
      exact hremark
  | cons entry entries =>
      have hopen : Reads lineEnd "\n      <ul>\n      ".toList lineEnd
          [.text "\n      \n      ", .tag "ul"] := by
        rw [String.toList_ofList]
        exact Reads.of_fixed rfl ⟨rfl, by decide, rfl⟩
      have hclose : Reads lineEnd "\n      </ul>\n      ".toList lineEnd
          [.text "\n      \n      ", .tag "/ul"] := by
        rw [String.toList_ofList]
        exact Reads.of_fixed rfl ⟨rfl, by decide, rfl⟩
      exact (hopen.trans (reads_rows lead (entry :: entries))).trans hclose

theorem reads_pageEnd : Reads lineEnd pageEnd.toList (.text, []) endParts.dropLast := by
  unfold pageEnd
  rw [String.toList_ofList]
  exact Reads.of_fixed rfl ⟨rfl, by decide, rfl⟩

/-- Reading the page gives its parts, with addresses and display paths as they are meant. -/
theorem read?_page (m : Manifest) (lead : String) :
    read? (m.page lead) = some (pageParts lead m.entries.pairs) := by
  have hsheet := Reads.escaped (.value '"') '"' (.inr rfl) rfl (lead ++ styleSheet)
  have hpage := (((reads_pageStart.trans hsheet).trans reads_pageMiddle).trans
    (reads_pageBody lead m.entries.pairs)).trans reads_pageEnd
  have htext : (m.page lead).toList = pageStart.toList ++
      (escaped (lead ++ styleSheet) ++ ['"']) ++ pageMiddle.toList.drop 28 ++
      pageBody lead m.entries.pairs ++ pageEnd.toList := by
    rw [page, String.toList_ofList, escaped_append]
    nth_rewrite 1 [pageMiddle_eq]
    simp only [List.append_assoc]
  rw [← htext] at hpage
  have hlast : endParts.dropLast ++ [Context.text.part [].reverse] = endParts := by
    rw [List.reverse_nil, Context.part, unescape]
    rfl
  rw [read?_of_reads hpage, List.append_assoc, hlast, Context.plainPart, String.ofList_toList]
  rfl

/-! ## The lines of the page -/

/-- The tag that begins a line. -/
def lineTag : List Char := ['<', 'l', 'i', '>']

theorem occurrences_escaped (s : String) (rest : List Char) :
    Text.occurrences lineTag (escaped s ++ rest) = Text.occurrences lineTag rest :=
  Text.occurrences_append_of_not_mem (delimiter_not_mem_escaped (by decide) s) _ rest

theorem occurrences_row (lead : String) (entry : String × String) (rest : List Char) :
    Text.occurrences lineTag (row lead entry ++ rest) = Text.occurrences lineTag rest + 1 := by
  have hopen : Text.Counts lineTag "\n        <li><a href=\"".toList 1 := by
    rw [String.toList_ofList]
    exact ⟨rfl, rfl⟩
  have hvalue : Text.Counts lineTag "\">".toList 0 := by
    rw [String.toList_ofList]
    exact ⟨rfl, rfl⟩
  have hclose : Text.Counts lineTag "</a></li>\n      ".toList 0 := by
    rw [String.toList_ofList]
    exact ⟨rfl, rfl⟩
  unfold row
  simp only [List.append_assoc]
  rw [hopen.append, occurrences_escaped, occurrences_escaped, hvalue.append, occurrences_escaped,
    hclose.append]
  omega

theorem occurrences_rows (lead : String) (entries : List (String × String)) (rest : List Char) :
    Text.occurrences lineTag (entries.flatMap (row lead) ++ rest) =
      Text.occurrences lineTag rest + entries.length := by
  induction entries with
  | nil => rfl
  | cons entry entries ih =>
      rw [List.flatMap_cons, List.append_assoc, occurrences_row, ih, List.length_cons]
      omega

theorem occurrences_pageBody (lead : String) (entries : List (String × String))
    (rest : List Char) : Text.occurrences lineTag (pageBody lead entries ++ rest) =
      Text.occurrences lineTag rest + entries.length := by
  cases entries with
  | nil =>
      have hremark : Text.Counts lineTag "\n      <p>No stories found.</p>\n      ".toList 0 := by
        rw [String.toList_ofList]
        exact ⟨rfl, rfl⟩
      exact (hremark.append rest).trans (Nat.add_comm _ _)
  | cons entry entries =>
      have hopen : Text.Counts lineTag "\n      <ul>\n      ".toList 0 := by
        rw [String.toList_ofList]
        exact ⟨rfl, rfl⟩
      have hclose : Text.Counts lineTag "\n      </ul>\n      ".toList 0 := by
        rw [String.toList_ofList]
        exact ⟨rfl, rfl⟩
      unfold pageBody
      simp only [List.append_assoc]
      rw [hopen.append, occurrences_rows, hclose.append]
      omega

theorem occurrences_page (m : Manifest) (lead : String) :
    Text.occurrences lineTag (m.page lead).toList = m.size := by
  have hfixed : Text.Counts lineTag pageStart.toList 0 ∧ Text.Counts lineTag pageMiddle.toList 0 ∧
      Text.Counts lineTag pageEnd.toList 0 := by
    unfold pageStart pageMiddle pageEnd
    repeat rw [String.toList_append]
    repeat rw [String.toList_ofList]
    decide +kernel
  obtain ⟨hstart, hmiddle, hend⟩ := hfixed
  rw [page, String.toList_ofList]
  simp only [List.append_assoc]
  rw [hstart.append, occurrences_escaped, hmiddle.append, occurrences_pageBody, hend.1]
  simp [size, KeyMap.size]

/-- The lines show which entries they were made from. -/
theorem flatMap_rowParts_injective {others : List (String × String)}
    (h : entries.flatMap (rowParts lead) = others.flatMap (rowParts lead)) : entries = others := by
  induction entries generalizing others with
  | nil =>
      cases others with
      | nil => rfl
      | cons other others => cases h
  | cons entry entries ih =>
      cases others with
      | nil => cases h
      | cons other others =>
          rw [List.flatMap_cons, List.flatMap_cons] at h
          obtain ⟨hrow, hrest⟩ := List.append_inj h rfl
          simp only [rowParts, List.cons.injEq, Part.value.injEq, Part.text.injEq, and_true,
            true_and, String.append_right_inj] at hrow
          rw [ih hrest, Prod.ext hrow.2 hrow.1]

theorem bodyParts_injective {others : List (String × String)}
    (h : bodyParts lead entries = bodyParts lead others) : entries = others := by
  unfold bodyParts at h
  split at h <;> split at h
  · rfl
  · simp at h
  · simp at h
  · apply flatMap_rowParts_injective
    exact List.append_cancel_left (List.append_cancel_right h)

/-- The page has one line for each entry, in the order of the bytes of the display paths. A reader
finds the tags of the page between texts and values that are those of the manifest, and pages with
one lead are alike only if they were made from one manifest. -/
theorem page_shows_entries (m : Manifest) (lead : String) :
    Text.occurrences "<li>".toList (m.page lead).toList = m.size ∧
    read? (m.page lead) = some (pageParts lead m.entries.pairs) ∧
    m.entries.pairs.Pairwise (fun e f => Text.bytes e.1 < Text.bytes f.1) ∧
    ∀ n : Manifest, n.page lead = m.page lead → n = m := by
  refine ⟨?_, read?_page m lead, m.entries.ascending.imp Text.bytes_lt_bytes, ?_⟩
  · rw [String.toList_ofList]
    exact occurrences_page m lead
  · intro n hpage
    have hparts : pageParts lead n.entries.pairs = pageParts lead m.entries.pairs := by
      apply Option.some.inj
      rw [← read?_page, ← read?_page, hpage]
    have hbody := List.append_cancel_left (List.append_cancel_right hparts)
    have hentries : n.entries = m.entries := KeyMap.ext (bodyParts_injective hbody)
    cases n
    cases m
    exact congrArg Manifest.mk hentries

/-- Entries with everything in them that ends a tag or a value, and a reference. -/
def hostileManifest : Manifest :=
  ⟨.ofList [("</a><li>", "\" onclick=\"x"), ("&#60;", "'>")]⟩

theorem page_shows_entries_hostile :
    Text.occurrences "<li>".toList (hostileManifest.page "<&\"").toList = 2 ∧
      read? (hostileManifest.page "<&\"") =
        some (pageParts "<&\"" [("&#60;", "'>"), ("</a><li>", "\" onclick=\"x")]) ∧
      (⟨.ofList [("&#60;", "'>"), ("</a><li>", "\" onclick=\"x")]⟩ : Manifest) =
        hostileManifest := by
  have hpairs : hostileManifest.entries.pairs =
      [("&#60;", "'>"), ("</a><li>", "\" onclick=\"x")] := by decide +kernel
  obtain ⟨hcount, hread, -, honly⟩ := page_shows_entries hostileManifest "<&\""
  rw [hpairs] at hread
  refine ⟨hcount.trans (by rw [size, KeyMap.size, hpairs]; rfl), hread, honly _ ?_⟩
  unfold page
  rw [hpairs]
  rfl

end Manifest

end Docset
