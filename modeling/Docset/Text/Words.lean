import Docset.Text.Blank

/-!
# Words and lists in a line

Settings are given as one line each. A list is divided at commas, a command at
runs of white space; white space around an item does not belong to it.
-/
namespace Docset.Text

/-- The parts between separators, after the finished `parts` and the `word` at hand, each of them
last first. -/
def splitAux (separates : Char → Bool) (word : List Char) (parts : List (List Char)) :
    List Char → List (List Char)
  | [] => (word.reverse :: parts).reverse
  | c :: rest =>
      if separates c then splitAux separates [] (word.reverse :: parts) rest
      else splitAux separates (c :: word) parts rest

/-- All parts between separators, empty ones included. -/
def split (separates : Char → Bool) (cs : List Char) : List (List Char) :=
  splitAux separates [] [] cs

/-- Drops white space from both ends. -/
def trim (cs : List Char) : List Char :=
  ((cs.dropWhile isWhiteSpace).reverse.dropWhile isWhiteSpace).reverse

def trimString (s : String) : String := String.ofList (trim s.toList)

/-- The words of a line. -/
def words (line : String) : List String :=
  ((split isWhiteSpace line.toList).filter (!·.isEmpty)).map String.ofList

/-- The items of a comma-separated list that are not blank. -/
def items (line : String) : List String :=
  (((split (· = ',') line.toList).map trim).filter (!·.isEmpty)).map String.ofList

/-- An unsigned integer of 64 bits: an optional plus sign and decimal digits. -/
def readUInt64? (s : String) : Option UInt64 :=
  let digits :=
    match s.toList with
    | '+' :: rest => rest
    | cs => cs
  if digits.isEmpty || !digits.all Char.isDigit then none
  else
    let n := digits.foldl (fun n c => n * 10 + (c.toNat - '0'.toNat)) 0
    if n < UInt64.size then some (UInt64.ofNat n) else none

end Docset.Text
