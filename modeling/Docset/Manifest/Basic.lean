import Docset.Json.Record
import Docset.KeyMap
import Docset.Story.Address
import Docset.Story.Id
import Docset.Story.Metadata

/-!
# Docset manifests

A manifest maps the display path of every listed story to the address that opens
it. Of two stories with one display path the later one is listed. A docset without
stories still gets one entry, the viewer itself.
-/
namespace Docset

/-- The entries of a docset: display paths and viewer addresses. -/
structure Manifest where
  entries : KeyMap String
  deriving DecidableEq, Repr

namespace Manifest

def empty : Manifest := ⟨.empty⟩

instance : Inhabited Manifest := ⟨empty⟩

/-- The manifest of a docset without stories. -/
def degraded : Manifest :=
  ⟨KeyMap.empty.insert "Storybook" (Story.viewerRoot ++ "/index.html")⟩

/-- Lists a story, unless it is the introductory page. -/
def insertStory (m : Manifest) (kind name id : String) : Manifest :=
  if Story.isIntroduction kind then m
  else ⟨m.entries.insert (Story.displayPath kind name) (Story.storyUrl id)⟩

/-- The manifest of extracted stories, with the ids they came with. -/
def ofStories (stories : List Story.Metadata) : Manifest :=
  stories.foldl (fun m s => m.insertStory s.kind s.name s.id) empty

/-- The manifest of scanned groups, with ids made from the names. -/
def ofGroups (groups : List Story.Group) : Manifest :=
  groups.foldl
    (fun m g => g.variants.foldl (fun m v => m.insertStory g.name v (Story.storyId g.name v)) m)
    empty

def size (m : Manifest) : Nat := m.entries.size

def isEmpty (m : Manifest) : Bool := m.entries.isEmpty

def ofJson? (v : Json) : Option Manifest := do
  match ← v.slots? [["Component"]] with
  | [entries] => return ⟨KeyMap.ofList (← entries.orDefault [] (Json.asMembers? Json.asString?))⟩
  | _ => none

def toJson (m : Manifest) : Json :=
  .object [("Component", .object (m.entries.pairs.map fun p => (p.1, .string p.2)))]

end Manifest

end Docset
