/-!
# Where a story is shown

A story is listed under a display path, its group and name joined by a slash, and
opens in the viewer bundled with the docset. Groups of the examples folder are
listed without that folder, and the introductory example page is not listed.
Both tests disregard case.
-/
namespace Docset.Story

/-- Folder of the docset that holds the viewer. -/
def viewerRoot : String := "storybook"

/-- The small ASCII letter that a character equals up to case. Besides the capitals these are the
long s and the Kelvin sign. -/
def foldLetter (c : Char) : Char :=
  if c = 'ſ' then 's' else if c = '\u212A' then 'k' else c.toLower

/-- What follows `lead` (in small letters) at the start of a text, up to case. -/
def afterFolded? : List Char → List Char → Option (List Char)
  | [], rest => some rest
  | _ :: _, [] => none
  | l :: lead, c :: rest => if foldLetter c = l then afterFolded? lead rest else none

/-- Whether `word` (in small letters) occurs in a text, up to case. -/
def containsFolded (word : List Char) : List Char → Bool
  | [] => word.isEmpty
  | c :: rest => (afterFolded? word (c :: rest)).isSome || containsFolded word rest

/-- Whether a group is the introductory example page. -/
def isIntroduction (kind : String) : Bool :=
  containsFolded "example/introduction".toList kind.toList

/-- A group without a leading `example/` or `examples/`. -/
def withoutExamples (kind : String) : String :=
  match afterFolded? "example/".toList kind.toList with
  | some rest => String.ofList rest
  | none =>
      match afterFolded? "examples/".toList kind.toList with
      | some rest => String.ofList rest
      | none => kind

def displayPath (kind name : String) : String := withoutExamples kind ++ "/" ++ name

/-- The address that opens a story in the viewer. -/
def storyUrl (id : String) : String := viewerRoot ++ "/index.html?path=/story/" ++ id

end Docset.Story
