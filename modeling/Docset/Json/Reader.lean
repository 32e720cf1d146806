import Docset.Json.Token

/-!
# Reading a JSON document

The tokens of a document drive a machine with a stack of unfinished arrays and
objects, so nesting is not limited. There are no trailing commas, and nothing may
follow the value.
-/
namespace Docset.Json

/-- An unfinished array or object around the value that is being read; what it holds so far comes
last first. -/
inductive Frame where
  | array (items : List Json)
  | object (members : List (Option String × Json)) (key : Option String)

/-- What has been read and what may come next. -/
inductive Progress where
  /-- A value has to follow. -/
  | value (stack : List Frame)
  /-- An array was opened. -/
  | firstItem (stack : List Frame)
  /-- An object was opened. -/
  | firstKey (stack : List Frame)
  /-- A comma stood between members. -/
  | key (members : List (Option String × Json)) (stack : List Frame)
  /-- A key was read. -/
  | colon (members : List (Option String × Json)) (key : Option String) (stack : List Frame)
  /-- A value is complete. -/
  | done (v : Json) (stack : List Frame)

/-- An object, unless one of its keys is not text. -/
def ofMembers (members : List (Option String × Json)) : Json :=
  match members.mapM fun m => m.1.map (·, m.2) with
  | some named => .object named
  | none => .unreadable

/-- The start of a value. -/
def beginValue? (stack : List Frame) : Token → Option Progress
  | .openBrace => some (.firstKey stack)
  | .openBracket => some (.firstItem stack)
  | .null => some (.done .null stack)
  | .bool b => some (.done (.bool b) stack)
  | .natural n => some (.done (.natural n) stack)
  | .number => some (.done .number stack)
  | .string (some s) => some (.done (.string s) stack)
  | .string none => some (.done .unreadable stack)
  | _ => none

/-- One token further. -/
def Progress.step? : Progress → Token → Option Progress
  | .value stack, t => beginValue? stack t
  | .firstItem stack, .closeBracket => some (.done (.array []) stack)
  | .firstItem stack, t => beginValue? (.array [] :: stack) t
  | .firstKey stack, .closeBrace => some (.done (.object []) stack)
  | .firstKey stack, .string k => some (.colon [] k stack)
  | .key members stack, .string k => some (.colon members k stack)
  | .colon members k stack, .colon => some (.value (.object members k :: stack))
  | .done v (.array items :: stack), .comma => some (.value (.array (v :: items) :: stack))
  | .done v (.array items :: stack), .closeBracket =>
      some (.done (.array (v :: items).reverse) stack)
  | .done v (.object members k :: stack), .comma => some (.key ((k, v) :: members) stack)
  | .done v (.object members k :: stack), .closeBrace =>
      some (.done (ofMembers ((k, v) :: members).reverse) stack)
  | _, _ => none

/-- The value that a list of tokens writes. -/
def ofTokens? (tokens : List Token) : Option Json :=
  match tokens.foldlM Progress.step? (.value []) with
  | some (.done v []) => some v
  | _ => none

/-- The value of a document. -/
def parse? (text : String) : Option Json := (tokens? text).bind ofTokens?

end Docset.Json
