/-!
# JSON values

Objects keep their members in written order, repeated keys included, so that a
reader can decide what a repetition means. Of numbers only the unsigned integers
carry a value; every other number is one case. A string may be well-formed JSON
and yet not be text, when it escapes half of a surrogate pair; such a string, or
an object with such a key, may be passed over but never used.
-/
namespace Docset

inductive Json where
  | null
  | bool (b : Bool)
  | natural (n : Nat)
  /-- A number that is not written as an unsigned integer. -/
  | number
  | string (s : String)
  | array (items : List Json)
  | object (members : List (String × Json))
  /-- A string that is not text, or an object one of whose keys is not. -/
  | unreadable
  deriving Repr, Inhabited

namespace Json

/-- Characters that may stand between the tokens of a document. -/
def isBlank (c : Char) : Bool := c = ' ' || c = '\n' || c = '\t' || c = '\r'

end Json

end Docset
