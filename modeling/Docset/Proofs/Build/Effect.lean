import Docset.Proofs.Build.Inclusion
import Docset.Proofs.Files.Complete

/-!
# What an inclusion does

Where nothing is in the way, an inclusion goes through. Then the copy holds every folder and
every file of the source, with the texts that were added at the ends of the files; what else
was in the copy stays there, and around it only the folders that were missing are new. If
text is added to copied files only, the next inclusion leaves everything as it is.
-/
namespace Docset

def Entry.adding (texts : List String) : Entry → Entry
  | .file bytes runnable =>
      .file (texts.foldl (fun bytes text => bytes ++ text.toUTF8) bytes) runnable
  | .folder => .folder
  | .link target => .link target
  | .void => .void

@[simp] theorem Entry.adding_nil (e : Entry) : e.adding [] = e := by cases e <;> rfl

theorem Entry.adding_append (texts more : List String) (e : Entry) :
    e.adding (texts ++ more) = (e.adding texts).adding more := by
  cases e with
  | file bytes runnable => simp [adding, List.foldl_append]
  | folder => rfl
  | link target => rfl
  | void => rfl

theorem Entry.adding_of_not_isFile {texts : List String} {e : Entry} (h : e.isFile = false) :
    e.adding texts = e := by
  cases e with
  | file bytes runnable => cases h
  | folder => rfl
  | link target => rfl
  | void => rfl

end Docset

namespace Docset.Build

open FileSystem

variable {i : Inclusion} {output copy : Path} {fs start mid after : FileSystem}
  {place dest inner l : Location} {e : Entry} {P : Location → Prop}

/-! ## Additions -/

/-- A path of an addition names a file of the copy, and can be used to find it there. -/
def Addresses (copy file : Path) (inner : Location) : Prop :=
  file.Names inner ∧ (checkPath (copy.join file)).toOption = some ()

instance (copy file : Path) (inner : Location) : Decidable (Addresses copy file inner) :=
  inferInstanceAs (Decidable (_ ∧ _))

/-- The texts that additions put at the end of a file, in order. -/
def textsFor (copy : Path) (additions : List (Path × String)) (inner : Location) : List String :=
  (additions.filter fun a => Addresses copy a.1 inner).map (·.2)

theorem textsFor_cons (copy : Path) (a : Path × String) (additions : List (Path × String))
    (inner : Location) :
    textsFor copy (a :: additions) inner =
      (if Addresses copy a.1 inner then [a.2] else []) ++ textsFor copy additions inner := by
  by_cases h : Addresses copy a.1 inner
  · simp [textsFor, h]
  · simp [textsFor, h]

/-- What additions do to a tree: what stands in the copy has the texts for it added. -/
structure Adds (copy : Path) (additions : List (Path × String)) (fs after : FileSystem)
    (dest : Location) : Prop where
  grows : Grows (fun l => dest <:+ l ∧ (fs.get? l).isSome) fs after
  get? : ∀ inner, after.get? (inner ++ dest) =
    (fs.get? (inner ++ dest)).map (Entry.adding (textsFor copy additions inner))

theorem addTo_adds (hfs : fs.WellFormed) (hcopy : fs.stat copy = .ok (dest, .folder))
    (hlinkless : fs.Linkless dest) {a : Path × String} (ha : a.1.Inner) :
    ∃ after, addTo copy a fs = .ok () after ∧ Adds copy [a] fs after dest := by
  obtain ⟨file, text⟩ := a
  have hfound : ∀ {inner bytes runnable},
      fs.get? (inner ++ dest) = some (.file bytes runnable) → Addresses copy file inner →
      fs.stat (copy.join file) = .ok (inner ++ dest, .file bytes runnable) :=
    fun hget haddr => (hlinkless.stat_join_file_iff hfs hcopy ha
      (except_toOption_eq_some_iff.mp haddr.2)).mpr ⟨haddr.1, hget⟩
  have hsame : ∀ inner, (∀ bytes runnable, fs.get? (inner ++ dest) = some (.file bytes runnable) →
      ¬ Addresses copy file inner) → fs.get? (inner ++ dest) =
        (fs.get? (inner ++ dest)).map (Entry.adding (textsFor copy [(file, text)] inner)) := by
    intro inner hnot
    cases hget : fs.get? (inner ++ dest) with
    | none => rfl
    | some e =>
        cases hfile : e.isFile with
        | false => rw [Option.map_some, Entry.adding_of_not_isFile hfile]
        | true =>
            obtain ⟨bytes, runnable, rfl⟩ := Entry.isFile_iff.mp hfile
            simp [textsFor, hnot bytes runnable hget]
  by_cases hfile : fs.isFile (copy.join file)
  · obtain ⟨l, old, runnable, hstat⟩ := isFile_iff.mp hfile
    have hget := get?_of_resolve (stat_eq_ok_iff.mp hstat)
    have hcheck := (resolve_eq_ok_iff.mp (stat_eq_ok_iff.mp hstat)).1
    have htouch : fs.Touch l (.file (old ++ text.toUTF8) runnable) := .refill hget
    obtain ⟨inner, rfl⟩ : ∃ inner, l = inner ++ dest :=
      ⟨_, hlinkless.eq_of_stat_join hcopy ha hstat⟩
    have hnames := ((hlinkless.stat_join_file_iff hfs hcopy ha hcheck).mp hstat).1
    refine ⟨_, addTo_of_file text hstat,
      .single htouch ⟨List.suffix_append _ _, by simp [hget]⟩, ?_⟩
    intro other
    rw [get?_put _ htouch.ne_nil]
    split
    · rename_i heq
      have hother := List.append_cancel_right heq
      subst hother
      have haddr : Addresses copy file inner :=
        ⟨hnames, except_toOption_eq_some_iff.mpr hcheck⟩
      simp [hget, textsFor, haddr, Entry.adding]
    · rename_i hne
      refine hsame other fun bytes' runnable' hget' haddr => hne ?_
      exact (Prod.mk.inj (Except.ok.inj (hstat.symm.trans (hfound hget' haddr)))).1
  · refine ⟨fs, addTo_of_not_isFile text hfile, .refl fs, fun inner => hsame inner ?_⟩
    intro bytes runnable hget haddr
    exact hfile (isFile_iff.mpr ⟨_, bytes, runnable, hfound hget haddr⟩)

/-- Additions are all made, and each file has those for it in order. -/
theorem additions_adds (hfs : fs.WellFormed) (hcopy : fs.stat copy = .ok (dest, .folder))
    (hlinkless : fs.Linkless dest) {additions : List (Path × String)}
    (hadditions : ∀ a ∈ additions, a.1.Inner) :
    ∃ after, additions.forM (addTo copy) fs = .ok () after ∧ Adds copy additions fs after dest := by
  induction additions generalizing fs with
  | nil =>
      refine ⟨fs, rfl, .refl fs, fun inner => ?_⟩
      cases fs.get? (inner ++ dest) with
      | none => rfl
      | some e => exact congrArg some e.adding_nil.symm
  | cons a additions ih =>
      obtain ⟨mid, hfirst, hadds⟩ := addTo_adds hfs hcopy hlinkless (hadditions a (by simp))
      obtain ⟨after, hrest, hadds'⟩ := ih (hadds.grows.wellFormed hfs)
        (hadds.grows.keeps.stat_folder hcopy) (hlinkless.grows hadds.grows)
        fun b hb => hadditions b (List.mem_cons_of_mem _ hb)
      refine ⟨after, FileAction.bind_eq_ok_iff.mpr ⟨(), mid, hfirst, hrest⟩, ?_, fun inner => ?_⟩
      · refine hadds.grows.trans (hadds'.grows.mono ?_)
        rintro l ⟨⟨inner, rfl⟩, hsome⟩
        rw [hadds.get?, Option.isSome_map] at hsome
        exact ⟨List.suffix_append _ _, hsome⟩
      · rw [hadds'.get?, hadds.get?, Option.map_map, textsFor_cons copy a []]
        congr 1
        funext e
        rw [Function.comp_apply, ← Entry.adding_append, textsFor_cons copy a additions]
        simp [textsFor]

/-! ## The copy -/

/-- Nothing is in the way of an inclusion: the source is a folder itself, the copy can be made
where its path says, the two are apart, the copy holds nothing but files and folders and these
are in no conflict with the source, and no addition leaves the copy. -/
structure Inclusion.Clear (i : Inclusion) (output : Path) (fs : FileSystem)
    (place dest : Location) : Prop where
  source : fs.lstat i.source = .ok (place, .folder)
  named : (output.join ⟨i.name⟩).text ≠ ""
  opens : fs.Opens ((output.join ⟨i.name⟩).join ⟨""⟩) dest
  apart : ¬ place <:+ dest ∧ ¬ dest <:+ place
  plain : ∀ names {e}, fs.get? (names ++ dest) = some e → e.copied
  fits : Fits fs i.source place (output.join ⟨i.name⟩) dest
  additions : ∀ a ∈ i.additions, a.1.Inner

/-- What the copy does: missing folders are made, and then every counterpart becomes what it stands
for. -/
theorem Inclusion.Clear.copyTree (hc : i.Clear output fs place dest) (hfs : fs.WellFormed) :
    ∃ start mid, Grows (fun l => l <:+ dest ∧ fs.get? l = none) fs start ∧
      SameBelow place fs start ∧
      Ready start i.source place (output.join ⟨i.name⟩) dest ∧
      Docset.copyTree i.source (output.join ⟨i.name⟩) fs =
        .ok (fs.filesUnder place).length mid ∧
      Copies start mid place dest := by
  obtain ⟨start, hmade, hopened, hgrows, -⟩ := makeFolders_of_opens hc.opens
  have hstart := hgrows.wellFormed hfs
  have hslash := hopened.resolve_left fun hempty => Path.text_join_empty_ne hc.named hempty.1
  have hdest := get?_of_resolve (stat_eq_ok_iff.mp hslash)
  have hplace := get?_of_resolve (lstat_eq_ok_iff.mp hc.source)
  have hsame : SameBelow place fs start := by
    intro l hl
    refine ⟨hgrows.get?_eq ?_, hgrows.children_eq hfs fun name => ?_⟩
    · rintro ⟨hsuffix, -⟩
      exact hc.apart.1 (hl.trans hsuffix)
    · rintro ⟨hsuffix, -⟩
      exact hc.apart.1 ((hl.trans (List.suffix_cons name l)).trans hsuffix)
  have hready : Ready start i.source place (output.join ⟨i.name⟩) dest :=
    { source := hgrows.keeps.stat_folder (stat_of_lstat hc.source (by rintro t ⟨⟩))
      target := stat_of_stat_slash hc.named hslash
      apart := hc.apart
      plain := fun names e hget => (hgrows.copied hget).elim (hc.plain names) id }
  have hfits : Fits start i.source place (output.join ⟨i.name⟩) dest := by
    refine hc.fits.grows hgrows hsame ?_
    rintro names e ⟨hsuffix, -⟩ hget he
    have hnil : names = [] := List.append_left_eq_self.mp (hsuffix.eq_of_length_le (by simp))
    subst hnil
    rw [List.nil_append, hplace] at hget
    cases hget
    exact hdest
  have hdepth : 4095 < 4096 + i.source.text.utf8ByteSize := by omega
  obtain ⟨mid, hcopy⟩ := copyBelow_succeeds hstart hready hfits hdepth
  have hcopies := copies_of_copyBelow hstart hready hcopy
  rw [hsame.length_filesUnder hfs hstart] at hcopy
  exact ⟨start, mid, hgrows, hsame, hready,
    (copyTree_of_folder hc.source).mpr ⟨start, hmade, hcopy⟩, hcopies⟩

/-! ## The whole inclusion -/

/-- What an inclusion leaves behind. -/
structure Inclusion.Effect (i : Inclusion) (output : Path) (fs after : FileSystem)
    (place dest : Location) : Prop where
  folders : ∀ inner, fs.get? (inner ++ place) = some .folder →
    after.get? (inner ++ dest) = some .folder
  files : ∀ inner bytes runnable, fs.get? (inner ++ place) = some (.file bytes runnable) →
    after.get? (inner ++ dest) = some (Entry.adding
      (textsFor (output.join ⟨i.name⟩) i.additions inner) (.file bytes runnable))
  /-- What the source has no folder or file for is as it was; so links are not copied. -/
  rest : ∀ inner, (∀ e, fs.get? (inner ++ place) = some e → e.copied = false) →
    after.get? (inner ++ dest) = (fs.get? (inner ++ dest)).map
      (Entry.adding (textsFor (output.join ⟨i.name⟩) i.additions inner))
  /-- Outside the copy only the missing folders around it are new. -/
  around : ∀ l, ¬ dest <:+ l →
    after.get? l = if l <:+ dest ∧ fs.get? l = none then some .folder else fs.get? l
  here : after.here = fs.here

theorem effect_of_copies (hfs : fs.WellFormed)
    (hmade : Grows (fun l => l <:+ dest ∧ fs.get? l = none) fs start)
    (hsame : SameBelow place fs start) (hplace : fs.get? place = some .folder)
    (hdest : start.get? dest = some .folder) (hcopies : Copies start mid place dest)
    (hadds : Adds (output.join ⟨i.name⟩) i.additions mid after dest) :
    i.Effect output fs after place dest where
  folders inner hget := by
    rw [← (hsame _ (List.suffix_append inner place)).1] at hget
    rw [hadds.get?, hcopies.copied inner hget rfl]
    rfl
  files inner bytes runnable hget := by
    rw [← (hsame _ (List.suffix_append inner place)).1] at hget
    rw [hadds.get?, hcopies.copied inner hget rfl]
    rfl
  rest inner hnot := by
    have huncopied : ¬ Counterpart start place dest (inner ++ dest) := by
      rintro ⟨names, e, heq, hget, he⟩
      rw [← List.append_cancel_right heq, (hsame _ (List.suffix_append inner place)).1] at hget
      rw [hnot e hget] at he
      cases he
    have hne : inner ≠ [] := by
      rintro rfl
      have := hnot .folder hplace
      cases this
    rw [hadds.get?, hcopies.grows.get?_eq huncopied, hmade.get?_eq]
    rintro ⟨hsuffix, -⟩
    exact hne (List.append_left_eq_self.mp (hsuffix.eq_of_length_le (by simp)))
  around l hl := by
    rw [hadds.grows.get?_eq fun h => hl h.1, hcopies.grows.get?_eq fun h => hl h.suffix]
    split
    · rename_i hmissing
      obtain ⟨⟨names, rfl⟩, -⟩ := hmissing
      refine (hmade.wellFormed hfs).get?_append names ?_ (by rw [hdest]; rfl)
      rintro rfl
      exact hl (List.suffix_refl _)
    · rename_i hthere
      exact hmade.get?_eq hthere
  here := ((hmade.keeps.trans hcopies.grows.keeps).trans hadds.grows.keeps).here

/-- An inclusion that nothing is in the way of succeeds; its copy counts the files of the source.
What it leaves behind is said entry by entry. If every addition is made to a file that the source
has, including once more changes nothing. -/
theorem perform_effect_of_clear (hfs : fs.WellFormed) (hc : i.Clear output fs place dest) :
    (∃ mid, copyTree i.source (output.join ⟨i.name⟩) fs =
      .ok (fs.filesUnder place).length mid) ∧
    ∃ after, i.perform output fs = .ok (output.join ⟨i.name⟩) after ∧
      i.Effect output fs after place dest ∧
      ((∀ a ∈ i.additions, ∃ inner bytes runnable, a.1.Names inner ∧
          fs.get? (inner ++ place) = some (.file bytes runnable)) →
        i.perform output after = .ok (output.join ⟨i.name⟩) after) := by
  obtain ⟨start, mid, hmade, hsame, hready, hcopy, hcopies⟩ := hc.copyTree hfs
  have hmid := hcopies.grows.wellFormed (hmade.wellFormed hfs)
  have hreadyMid := hready.grows hcopies.grows
  obtain ⟨after, hadd, hadds⟩ :=
    additions_adds hmid hreadyMid.target hreadyMid.linkless hc.additions
  have hperform : i.perform output fs = .ok (output.join ⟨i.name⟩) after :=
    perform_eq_ok_iff.mpr ⟨_, mid, hcopy, hadd, rfl⟩
  have heffect := effect_of_copies hfs hmade hsame
    (get?_of_resolve (lstat_eq_ok_iff.mp hc.source))
    (get?_of_resolve (stat_eq_ok_iff.mp hready.target)) hcopies hadds
  refine ⟨⟨mid, FileAction.mapError_eq_ok_iff.mpr hcopy⟩, after, hperform, heffect, fun hown => ?_⟩
  have hreadyAfter := hreadyMid.grows hadds.grows
  have hstat := stat_of_lstat hc.source (by rintro t ⟨⟩)
  refine perform_again hfs hc.named hstat hperform ⟨hreadyAfter, ?_, ?_⟩ (.refl after)
  · intro l t hlink
    obtain ⟨e, he, halike⟩ := (grows_of_perform hfs hperform).keeps.lookUp hc.source
    cases halike
    rw [show after.lookUp .itself i.source = after.lstat i.source from rfl, hlink] at he
    cases he
  · intro a ha l bytes runnable hfound
    obtain ⟨inner, bytes', runnable', ⟨hsteps, -⟩, hget⟩ := hown a ha
    have hl := hreadyAfter.linkless.eq_of_stat_join hreadyAfter.target (hc.additions a ha) hfound
    rw [hsteps, List.reverse_reverse] at hl
    refine ⟨inner, .file bytes' runnable', hl, ?_, rfl⟩
    rw [heffect.around _ fun hsuffix => not_both hc.apart (List.suffix_append _ _) hsuffix,
      if_neg (by simp [hget]), hget]

def linkedStorybook : FileSystem :=
  { entries :=
      [(["src"], .folder),
        (["index.html", "src"], .file "<html>".toUTF8 false),
        (["js", "src"], .folder),
        (["app.js", "js", "src"], .file "run()".toUTF8 true),
        (["latest", "src"], .link "js"),
        (["out"], .folder)]
    here := [] }

def styledInclusion : Inclusion :=
  { source := ⟨"src"⟩
    name := "storybook"
    additions := [(⟨"index.html"⟩, "<style>"), (⟨"./index.html"⟩, "<script>")] }

theorem linkedStorybook_wellFormed : linkedStorybook.WellFormed :=
  ⟨by decide +kernel, by decide +kernel⟩

theorem styledInclusion_clear :
    styledInclusion.Clear ⟨"out/docs"⟩ linkedStorybook ["src"] ["storybook", "docs", "out"] := by
  have hsource : (linkedStorybook.lstat styledInclusion.source).toOption =
      some (["src"], .folder) := by decide +kernel
  have hout : (linkedStorybook.stat ⟨"out"⟩).toOption = some (["out"], .folder) := by
    decide +kernel
  have hnone : ∀ names, linkedStorybook.get? (names ++ ["storybook", "docs", "out"]) = none :=
    fun names => linkedStorybook_wellFormed.get?_eq_none_of_suffix (by decide +kernel)
      (List.suffix_append _ _)
  have husable : ∀ p ∈ linkedStorybook.entries,
      (checkPath (styledInclusion.source.below
        (p.1.take (p.1.length - 1)).reverse)).toOption = some () ∧
      (checkPath ((Path.join ⟨"out/docs"⟩ ⟨styledInclusion.name⟩).below
        (p.1.take (p.1.length - 1)).reverse)).toOption = some () := by decide +kernel
  refine
    { source := except_toOption_eq_some_iff.mp hsource
      named := by decide +kernel
      opens := ?_
      apart := by decide +kernel
      plain := fun names e hget => by simp [hnone] at hget
      fits := ⟨fun names e hget _ => ?_, fun names e e' _ _ hget => by simp [hnone] at hget⟩
      additions := by decide +kernel }
  · have hdocs : linkedStorybook.Opens ⟨"out/docs"⟩ ["docs", "out"] :=
      .beyond (by decide +kernel) (.there (.inr (except_toOption_eq_some_iff.mp hout)))
        (by decide +kernel) (by decide +kernel) rfl (by decide +kernel)
    exact .beyond (q := ⟨"out/docs"⟩) (by decide +kernel) hdocs (by decide +kernel)
      (by decide +kernel) rfl (by decide +kernel)
  · have hnames := husable _ (mem_of_get? hget (by simp))
    rw [except_toOption_eq_some_iff, except_toOption_eq_some_iff] at hnames
    simpa using hnames

theorem perform_effect_of_clear_linked_storybook :
    ∃ after, styledInclusion.perform ⟨"out/docs"⟩ linkedStorybook =
        .ok ⟨"out/docs/storybook"⟩ after ∧
      after.get? ["index.html", "storybook", "docs", "out"] =
        some (.file "<html><style><script>".toUTF8 false) ∧
      after.get? ["latest", "storybook", "docs", "out"] = none ∧
      styledInclusion.perform ⟨"out/docs"⟩ after = .ok ⟨"out/docs/storybook"⟩ after := by
  obtain ⟨-, after, hperform, heffect, hagain⟩ :=
    perform_effect_of_clear linkedStorybook_wellFormed styledInclusion_clear
  have hindex := heffect.files ["index.html"] "<html>".toUTF8 false (by decide +kernel)
  have hlatest := heffect.rest ["latest"] (by decide +kernel)
  have hown : ∀ a ∈ styledInclusion.additions, a.1.Names ["index.html"] := by decide +kernel
  refine ⟨after, hperform, hindex.trans (by decide +kernel), hlatest.trans (by decide +kernel), ?_⟩
  exact hagain fun a ha => ⟨["index.html"], _, _, hown a ha, (by decide +kernel :
    linkedStorybook.get? ["index.html", "src"] = some (.file "<html>".toUTF8 false))⟩

/-- Beyond a missing folder a path has to go on by names. A dot at its end keeps the folder from
being made, and `..` leads out again of a folder that was made for it and is not around the copy. -/
theorem perform_goes_astray_beyond_missing_folder :
    linkedStorybook.present ⟨"docset"⟩ = false ∧
    (Inclusion.perform ⟨⟨"src"⟩, ".", []⟩ ⟨"docset"⟩).result? linkedStorybook = none ∧
    ∃ after, Inclusion.perform ⟨⟨"src"⟩, "storybook", []⟩ ⟨"new/../out"⟩ linkedStorybook =
        .ok ⟨"new/../out/storybook"⟩ after ∧
      after.get? ["index.html", "storybook", "out"] = some (.file "<html>".toUTF8 false) ∧
      linkedStorybook.get? ["new"] = none ∧ after.get? ["new"] = some .folder := by
  have hrun : ((Inclusion.perform ⟨⟨"src"⟩, "storybook", []⟩ ⟨"new/../out"⟩).outcome?
      linkedStorybook).any (fun (copy, after) => copy = ⟨"new/../out/storybook"⟩ ∧
        after.get? ["index.html", "storybook", "out"] = some (.file "<html>".toUTF8 false) ∧
        after.get? ["new"] = some .folder) = true := by decide +kernel
  obtain ⟨⟨copy, after⟩, hafter, hparts⟩ := (Option.any_eq_true _ _).mp hrun
  obtain ⟨rfl, hindex, hnew⟩ := of_decide_eq_true hparts
  exact ⟨by decide +kernel, by decide +kernel, after, FileAction.outcome?_eq_some_iff.mp hafter,
    hindex, by decide +kernel, hnew⟩

end Docset.Build
