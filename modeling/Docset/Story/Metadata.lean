import Docset.Json.Reader
import Docset.Json.Record
import Docset.KeyMap
import Docset.Story.Group

/-!
# Story records

Groups as they appear in reports, and the metadata of single stories that a
project's own tools leave behind. The metadata file maps keys to stories; only the
stories matter, in the order of their keys. The group of a story is called `kind`
there or, by newer tools, `title`.
-/
namespace Docset.Story

structure Metadata where
  id : String
  kind : String
  name : String
  deriving DecidableEq, Repr, Inhabited

namespace Group

def ofJson? (v : Json) : Option Group := do
  match ← v.slots? [["name"], ["variants"]] with
  | [name, variants] =>
      return {
        name := ← name.required Json.asString?
        variants := ← variants.required (Json.asList? Json.asString?) }
  | _ => none

def toJson (g : Group) : Json :=
  .object [("name", .string g.name), ("variants", .ofStrings g.variants)]

end Group

namespace Metadata

def ofJson? (v : Json) : Option Metadata := do
  match ← v.slots? [["id"], ["kind", "title"], ["name"]] with
  | [id, kind, name] =>
      return {
        id := ← id.required Json.asString?
        kind := ← kind.required Json.asString?
        name := ← name.required Json.asString? }
  | _ => none

def toJson (m : Metadata) : Json :=
  .object [("id", .string m.id), ("kind", .string m.kind), ("name", .string m.name)]

end Metadata

/-- The map of stories in a metadata file; a key written twice counts with its last story. -/
def storyMap? (v : Json) : Option (KeyMap Metadata) := do
  match ← v.slots? [["stories"]] with
  | [stories] =>
      return KeyMap.ofList (← stories.orDefault [] (Json.asMembers? Metadata.ofJson?))
  | _ => none

/-- The stories of a metadata file, by ascending keys. -/
def parseStories? (contents : String) : Option (List Metadata) := do
  return (← storyMap? (← Json.parse? contents)).values

end Docset.Story
