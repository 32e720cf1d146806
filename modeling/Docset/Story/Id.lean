import Docset.Story.Group
import Docset.Text.Alphanumeric
import Docset.Text.LowerCase

/-!
# Story ids

The viewer addresses a story by an id built from its group and its variant. Each
part is lower-cased and reduced to its alphanumeric characters; whatever lies
between two of them becomes a single dash. The parts are joined by two dashes.
-/
namespace Docset.Story

/-- Copies alphanumeric characters to `out` (last first). A dash goes in front of one of them if
others were left out since the previous one, which is what `gap` says. -/
def dashed (gap : Bool) (out : List Char) : List Char → List Char
  | [] => out.reverse
  | c :: cs =>
      if Text.isAlphanumeric c then
        dashed false (if gap && !out.isEmpty then c :: '-' :: out else c :: out) cs
      else dashed true out cs

/-- One part of a story id. -/
def sanitize (part : String) : String :=
  String.ofList (dashed false [] (Text.lower part.toList))

/-- The id of a variant of a group. -/
def storyId (group variant : String) : String :=
  sanitize group ++ "--" ++ sanitize variant

/-- The ids of a group's variants, in order. -/
def Group.storyIds (g : Group) : List String := g.variants.map (storyId g.name)

end Docset.Story
