/-!
# Blank characters

Two classes are used side by side. The wide one is the Unicode property
White_Space; it separates words and may stand between the name of a call and its
parenthesis. The narrow one has six layout characters and is what may stand in
front of a quoted literal, so a no-break space there is not skipped.
-/
namespace Docset.Text

/-- White_Space, as inclusive ranges of code points in ascending order. -/
def whiteSpaceRanges : List (Nat × Nat) :=
  [(0x9, 0xD), (0x20, 0x20), (0x85, 0x85), (0xA0, 0xA0), (0x1680, 0x1680), (0x2000, 0x200A),
    (0x2028, 0x2029), (0x202F, 0x202F), (0x205F, 0x205F), (0x3000, 0x3000)]

/-- Looks a code point up in ascending inclusive ranges. -/
def inRanges (n : Nat) : List (Nat × Nat) → Bool
  | [] => false
  | (low, high) :: ranges => if n < low then false else n ≤ high || inRanges n ranges

def isWhiteSpace (c : Char) : Bool := inRanges c.toNat whiteSpaceRanges

/-- Space, tab, line feed, vertical tab, form feed and carriage return. -/
def isLayout (c : Char) : Bool :=
  c = ' ' || c = '\t' || c = '\n' || c = '\x0B' || c = '\x0C' || c = '\r'

end Docset.Text
