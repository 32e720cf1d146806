import Docset.Build.Run
import Docset.Proofs.Json.Records
import Docset.Proofs.KeyMap
import Docset.Proofs.Text.ByteOrder

/-!
# Reading a metadata file

The stories that a project's tools leave behind are trusted, so what is read of them has to
be what was written. Which documents hold a map of stories is said here about the documents:
their entries may come in any order, as may the fields of an entry, the kind of a story has
two names, whatever is not known is passed over, and under a key that is written again the
last story counts. From every text that writes such a document the map is read. An entry
that lacks a field or gives one more than once keeps the whole document from being read.
-/
namespace Docset.Story

open Json

variable {v doc : Json} {s : Metadata} {m : KeyMap Metadata}

/-! ## Entries -/

/-- The names of each field of a story; the kind has two. -/
def spellings : List (List String) := [["id"], ["kind", "title"], ["name"]]

/-- The names by which the fields of a story are known. -/
def fieldNames : List String := spellings.flatten

/-- An object that gives the fields of a story, in any order and the kind by either of its names,
and may have members besides that are no field. -/
inductive Tells : Json → Metadata → Prop
  | mk {s : Metadata} {members extra : List (String × Json)} {kindName : String}
      (hkind : kindName = "kind" ∨ kindName = "title") (hextra : ∀ m ∈ extra, m.1 ∉ fieldNames)
      (hperm : members.Perm ([("id", .string s.id), (kindName, .string s.kind),
        ("name", .string s.name)] ++ extra)) : Tells (.object members) s

theorem Metadata.ofJson?_of_tells (h : Tells v s) : Metadata.ofJson? v = some s := by
  cases h with
  | @mk s members extra kindName hkind hextra hperm =>
      have hnone : ∀ names ∈ spellings, ∀ m ∈ extra, m.1 ∉ names := by
        intro names hnames m hm hmem
        exact hextra m hm (List.mem_flatten.mpr ⟨names, hnames, hmem⟩)
      unfold Metadata.ofJson?
      rw [slots?_of_perm hperm]
      simp only [slots?, List.mapM_cons, List.mapM_nil,
        memberSlot?_append (hnone ["id"] (by simp [spellings])),
        memberSlot?_append (hnone ["kind", "title"] (by simp [spellings])),
        memberSlot?_append (hnone ["name"] (by simp [spellings]))]
      rcases hkind with rfl | rfl
      · rfl
      · rfl

/-- An entry that is no story: a field is missing, or it is given more than once. -/
inductive Malformed (keys : List (Option String)) : Prop
  | noId (h : some "id" ∉ keys)
  | noName (h : some "name" ∉ keys)
  | noKind (hkind : some "kind" ∉ keys) (htitle : some "title" ∉ keys)
  | repeats {name : String} (hname : name ∈ fieldNames) (h : 2 ≤ keys.count (some name))
  | bothKinds (hkind : some "kind" ∈ keys) (htitle : some "title" ∈ keys)

theorem filter_keys_of_ofJson? {members : List (String × Json)}
    (h : Metadata.ofJson? (.object members) = some s) :
    ∀ names ∈ spellings, ∃ name, (members.map Prod.fst).filter names.contains = [name] := by
  unfold Metadata.ofJson? at h
  simp only [slots?, List.mapM_cons, List.mapM_nil, Option.bind_eq_bind, Option.pure_def,
    Option.bind_assoc, Option.bind_some] at h
  obtain ⟨id, hid, h⟩ := Option.bind_eq_some_iff.mp h
  obtain ⟨kind, hkind, h⟩ := Option.bind_eq_some_iff.mp h
  obtain ⟨name, hname, h⟩ := Option.bind_eq_some_iff.mp h
  obtain ⟨_, hreadId, h⟩ := Option.bind_eq_some_iff.mp h
  obtain ⟨_, hreadKind, h⟩ := Option.bind_eq_some_iff.mp h
  obtain ⟨_, hreadName, -⟩ := Option.bind_eq_some_iff.mp h
  obtain ⟨_, rfl, -⟩ := Slot.eq_given_of_required hreadId
  obtain ⟨_, rfl, -⟩ := Slot.eq_given_of_required hreadKind
  obtain ⟨_, rfl, -⟩ := Slot.eq_given_of_required hreadName
  simp only [spellings, List.forall_mem_cons, List.not_mem_nil, false_implies, implies_true,
    and_true]
  exact ⟨filter_keys_of_given hid, filter_keys_of_given hkind, filter_keys_of_given hname⟩

theorem Malformed.not_filter_keys {keys : List String} (h : Malformed (keys.map some)) :
    ¬ ∀ names ∈ spellings, ∃ name, keys.filter names.contains = [name] := by
  intro hone
  have hsome : ∀ names ∈ spellings, ∃ name ∈ names, some name ∈ keys.map some := by
    intro names hnames
    obtain ⟨name, hname⟩ := hone names hnames
    have hfound : name ∈ keys.filter names.contains := by simp [hname]
    rw [List.mem_filter, List.contains_iff_mem] at hfound
    exact ⟨name, hfound.2, List.mem_map_of_mem hfound.1⟩
  cases h with
  | noId h =>
      obtain ⟨name, hname, hkeys⟩ := hsome ["id"] (by simp [spellings])
      exact h (List.mem_singleton.mp hname ▸ hkeys)
  | noName h =>
      obtain ⟨name, hname, hkeys⟩ := hsome ["name"] (by simp [spellings])
      exact h (List.mem_singleton.mp hname ▸ hkeys)
  | noKind hkind htitle =>
      obtain ⟨name, hname, hkeys⟩ := hsome ["kind", "title"] (by simp [spellings])
      rcases List.mem_pair.mp hname with rfl | rfl
      · exact hkind hkeys
      · exact htitle hkeys
  | @repeats name hname h =>
      obtain ⟨names, hnames, hmem⟩ := List.mem_flatten.mp hname
      obtain ⟨found, hfound⟩ := hone names hnames
      have hcount := List.count_filter (l := keys) (List.contains_iff_mem.mpr hmem)
      have hle : [found].count name ≤ 1 := List.count_le_length
      rw [hfound] at hcount
      rw [List.count_map_of_injective keys some (Option.some_injective String)] at h
      omega
  | bothKinds hkind htitle =>
      obtain ⟨found, hfound⟩ := hone ["kind", "title"] (by simp [spellings])
      have hsame : ∀ name ∈ ["kind", "title"], some name ∈ keys.map some → name = found := by
        intro name hname hkeys
        have hmem : name ∈ keys.filter (List.contains ["kind", "title"]) := by
          rw [List.mem_filter, List.contains_iff_mem]
          exact ⟨by simpa using hkeys, hname⟩
        rwa [hfound, List.mem_singleton] at hmem
      have hboth := (hsame "kind" (by simp) hkind).trans (hsame "title" (by simp) htitle).symm
      exact absurd hboth (by decide)

theorem Malformed.ofJson?_eq_none {all : List (Option String × Json)}
    (h : Malformed (all.map Prod.fst)) : Metadata.ofJson? (ofMembers all) = none := by
  rcases ofMembers_cases all with hobject | ⟨members, hobject, hall⟩
  · rw [hobject]
    rfl
  · have hkeys : all.map Prod.fst = (members.map Prod.fst).map some := by simp [hall]
    rw [hkeys] at h
    rw [hobject, Option.eq_none_iff_forall_ne_some]
    intro s hs
    exact h.not_filter_keys (filter_keys_of_ofJson? hs)

/-! ## Documents -/

/-- Entries as they are written tell these stories, under the same keys and in the same order. -/
def Lists (written : List (String × Json)) (stories : List (String × Metadata)) : Prop :=
  List.Forall₂ (fun w p => w.1 = p.1 ∧ Tells w.2 p.2) written stories

/-- The document of a map. Its stories are written in any order, and a key may be written again; the
last story under a key is the one that counts. There may be other members besides the stories, and
a map without stories may be left out altogether. -/
inductive Holds : Json → KeyMap Metadata → Prop
  | given {members extra written : List (String × Json)} {stories : List (String × Metadata)}
      {m : KeyMap Metadata} (hextra : ∀ e ∈ extra, e.1 ≠ "stories")
      (hperm : members.Perm (("stories", .object written) :: extra))
      (hwritten : Lists written stories)
      (hlast : ∀ key s, m.get? key = some s ↔
        ∃ before after, stories = before ++ (key, s) :: after ∧ key ∉ after.map (·.1)) :
      Holds (.object members) m
  | omitted {members : List (String × Json)} (h : ∀ e ∈ members, e.1 ≠ "stories") :
      Holds (.object members) .empty

theorem asMembers?_of_lists {written : List (String × Json)} {stories : List (String × Metadata)}
    (h : Lists written stories) :
    asMembers? Metadata.ofJson? (.object written) = some stories := by
  simp only [asMembers?]
  induction h with
  | nil => rfl
  | cons hfirst _ ih =>
      rw [List.mapM_cons, Metadata.ofJson?_of_tells hfirst.2, ih, hfirst.1]
      rfl

theorem storyMap?_object (members : List (String × Json)) :
    storyMap? (.object members) = (memberSlot? members ["stories"]).bind fun stories =>
      (stories.orDefault [] (asMembers? Metadata.ofJson?)).map KeyMap.ofList := by
  unfold storyMap?
  cases hslot : memberSlot? members ["stories"] with
  | none => simp [slots?, List.mapM_cons, hslot]
  | some stories =>
      cases hread : stories.orDefault [] (asMembers? Metadata.ofJson?) with
      | none => simp [slots?, List.mapM_cons, hslot, hread]
      | some pairs => simp [slots?, List.mapM_cons, hslot, hread]

theorem storyMap?_of_holds (h : Holds doc m) : storyMap? doc = some m := by
  cases h with
  | @given members extra written stories m hextra hperm hwritten hlast =>
      have hslot : memberSlot? members ["stories"] = some (.given (.object written)) := by
        rw [memberSlot?_of_perm hperm, ← List.singleton_append, memberSlot?_append]
        · rfl
        · simpa using hextra
      have hmap : KeyMap.ofList stories = m := by
        apply KeyMap.ext_get?
        intro key
        apply Option.ext
        intro s
        rw [KeyMap.get?_ofList_eq_some_iff, hlast]
      rw [storyMap?_object, hslot, Option.bind_some, Slot.orDefault, asMembers?_of_lists hwritten,
        Option.map_some, hmap]
  | @omitted members h =>
      have hslot : memberSlot? members ["stories"] = some .omitted := by
        rw [← List.nil_append members, memberSlot?_append]
        · rfl
        · simpa using h
      rw [storyMap?_object, hslot]
      rfl

/-- A document one of whose entries is malformed. -/
inductive Spoiled : Json → Prop
  | mk {all written entry : List (Option String × Json)} {key : Option String}
      (hstories : (some "stories", ofMembers written) ∈ all)
      (hentry : (key, ofMembers entry) ∈ written) (h : Malformed (entry.map Prod.fst)) :
      Spoiled (ofMembers all)

theorem asMembers?_eq_none {written entry : List (Option String × Json)} {key : Option String}
    (hentry : (key, ofMembers entry) ∈ written) (h : Malformed (entry.map Prod.fst)) :
    asMembers? Metadata.ofJson? (ofMembers written) = none := by
  rcases ofMembers_cases written with hobject | ⟨members, hobject, hall⟩
  · rw [hobject]
    rfl
  · rw [hall] at hentry
    obtain ⟨m, hm, heq⟩ := List.mem_map.mp hentry
    rw [hobject]
    apply mapM_eq_none hm
    rw [congrArg Prod.snd heq, h.ofJson?_eq_none]
    rfl

theorem storyMap?_of_spoiled (h : Spoiled doc) : storyMap? doc = none := by
  cases h with
  | @mk all written entry key hstories hentry h =>
      have hnone := asMembers?_eq_none hentry h
      rcases ofMembers_cases all with hobject | ⟨members, hobject, hall⟩
      · rw [hobject]
        rfl
      · rw [hall] at hstories
        obtain ⟨m, hm, heq⟩ := List.mem_map.mp hstories
        obtain ⟨hname, hvalue⟩ : some m.1 = some "stories" ∧ m.2 = ofMembers written :=
          Prod.mk.inj heq
        rw [hobject, storyMap?_object]
        rcases memberSlot?_of_mem hm (List.mem_singleton.mpr (Option.some.inj hname)) with
          hslot | hslot
        · rw [hslot]
          rfl
        · rw [hslot, Option.bind_some, Slot.orDefault, hvalue, hnone]
          rfl

/-- A document that holds a map of stories, however it is written, is read as the stories of the map
by ascending bytes of their keys; a document with a malformed entry is not read at all. -/
theorem parse_stories_exact :
    (∀ (m : KeyMap Metadata) (doc : Json) (contents : String), Written doc contents →
      Holds doc m →
        parseStories? contents = some m.values ∧
        m.pairs.Pairwise (fun p q => Text.bytes p.1 < Text.bytes q.1) ∧
        ∀ (host : Host) (fs : FileSystem) (file : Path), fs.readText file = .ok contents →
          Build.readStories host fs file = .ok m.values) ∧
    ∀ (doc : Json) (contents : String), Written doc contents → Spoiled doc →
      parseStories? contents = none ∧
      ∀ (host : Host) (fs : FileSystem) (file : Path), fs.readText file = .ok contents →
        Build.readStories host fs file = .error (.json (host.explain .stories contents)) := by
  constructor
  · intro m doc contents hwritten hholds
    have hparse : parseStories? contents = some m.values := by
      rw [parseStories?, parse?_of_written hwritten]
      simp [storyMap?_of_holds hholds]
    refine ⟨hparse, m.ascending.imp Text.bytes_lt_bytes, fun host fs file hread => ?_⟩
    simp only [Build.readStories, hread, hparse]
  · intro doc contents hwritten hspoiled
    have hparse : parseStories? contents = none := by
      rw [parseStories?, parse?_of_written hwritten]
      simp [storyMap?_of_spoiled hspoiled]
    refine ⟨hparse, fun host fs file hread => ?_⟩
    simp only [Build.readStories, hread, hparse]

def buttonEntry : Json :=
  .object [("id", .string "button"), ("kind", .string "Button"), ("name", .string "Primary")]

/-- An entry in another order, with the newer name and a member that is no field. -/
def formsEntry : Json :=
  .object [("title", .string "Forms"), ("id", .string "forms"), ("parameters", .null),
    ("name", .string "Default")]

def sampleDocument : Json :=
  .object [("v", .natural 3),
    ("stories", .object [("b", formsEntry), ("b", buttonEntry), ("a", formsEntry)])]

/-- The members of an entry that gives the kind by both of its names. -/
def twiceEntry : List (Option String × Json) :=
  [(some "id", .string "forms"), (some "kind", .string "Forms"), (some "title", .string "Forms"),
    (some "name", .string "Default")]

def spoiledDocument : Json :=
  .object [("stories", .object [("a", buttonEntry), ("b", ofMembers twiceEntry)])]

theorem tells_buttonEntry : Tells buttonEntry ⟨"button", "Button", "Primary"⟩ :=
  @Tells.mk ⟨"button", "Button", "Primary"⟩ _ [] "kind" (.inl rfl) (by simp) (.refl _)

theorem tells_formsEntry : Tells formsEntry ⟨"forms", "Forms", "Default"⟩ := by
  apply @Tells.mk ⟨"forms", "Forms", "Default"⟩ _ [("parameters", .null)] "title" (.inr rfl)
  · simp [fieldNames, spellings]
  · exact (List.Perm.swap _ _ _).trans (.cons _ (.cons _ (.swap _ _ _)))

theorem parse_stories_exact_sample :
    (∃ m, Written sampleDocument sampleDocument.pretty ∧ Holds sampleDocument m ∧
      parseStories? sampleDocument.pretty = some m.values ∧
      m.values = [⟨"forms", "Forms", "Default"⟩, ⟨"button", "Button", "Primary"⟩]) ∧
    Written spoiledDocument spoiledDocument.pretty ∧ Spoiled spoiledDocument ∧
      parseStories? spoiledDocument.pretty = none := by
  have hbutton : Plain buttonEntry := plain_object ⟨.string _, .string _, .string _⟩
  have hforms : Plain formsEntry := plain_object ⟨.string _, .string _, .null, .string _⟩
  constructor
  · have hwritten := written_pretty (v := sampleDocument)
      (plain_object ⟨.natural 3, plain_object ⟨hforms, hbutton, hforms⟩⟩)
    have hlists : Lists [("b", formsEntry), ("b", buttonEntry), ("a", formsEntry)]
        [("b", ⟨"forms", "Forms", "Default"⟩), ("b", ⟨"button", "Button", "Primary"⟩),
          ("a", ⟨"forms", "Forms", "Default"⟩)] :=
      .cons ⟨rfl, tells_formsEntry⟩ (.cons ⟨rfl, tells_buttonEntry⟩
        (.cons ⟨rfl, tells_formsEntry⟩ .nil))
    have hholds : Holds sampleDocument (KeyMap.ofList _) :=
      @Holds.given _ [("v", .natural 3)] _ _ _ (by simp) (.swap _ _ _) hlists
        fun _ _ => KeyMap.get?_ofList_eq_some_iff
    exact ⟨_, hwritten, hholds, (parse_stories_exact.1 _ _ _ hwritten hholds).1, rfl⟩
  · have hwritten := written_pretty (v := spoiledDocument)
      (plain_object (plain_object ⟨hbutton,
        plain_object ⟨.string _, .string _, .string _, .string _⟩⟩))
    have hspoiled : Spoiled spoiledDocument :=
      @Spoiled.mk [(some "stories", _)] [(some "a", buttonEntry), (some "b", ofMembers twiceEntry)]
        twiceEntry (some "b") List.mem_cons_self (List.mem_cons_of_mem _ List.mem_cons_self)
        (.bothKinds (by simp [twiceEntry]) (by simp [twiceEntry]))
    exact ⟨hwritten, hspoiled, (parse_stories_exact.2 _ _ hwritten hspoiled).1⟩

end Docset.Story
