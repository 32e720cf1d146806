/-!
# Sizes for people

A number of bytes is shown in the largest decimal unit that leaves at least one of
it, with two places unless it comes out whole. The number is scaled down in binary
floating point with 53 significant bits, one thousand at a time, and what is shown
is the exact decimal rounding of the result; ties go to the even digit both times.
So 1005 bytes are `1.00 kB`, a little less than half a place above one.
-/
namespace Docset.Text

/-- The quotient rounded to the nearest whole number, a half to the even one. -/
def roundHalfEven (n d : Nat) : Nat :=
  let q := n / d
  let twice := 2 * (n % d)
  if twice < d then q
  else if d < twice then q + 1
  else q + q % 2

/-- A binary fraction: `numerator` over two to the power of `scale`. -/
structure Binary where
  numerator : Nat
  scale : Nat
  deriving DecidableEq, Repr

namespace Binary

def denominator (b : Binary) : Nat := 1 <<< b.scale

/-- The nearest number of 53 significant bits to a quotient of at least one. -/
def nearest (n d : Nat) : Binary :=
  let bits := (n / d).log2
  if bits ≤ 52 then ⟨roundHalfEven (n <<< (52 - bits)) d, 52 - bits⟩
  else ⟨roundHalfEven n (d <<< (bits - 52)) <<< (bits - 52), 0⟩

def ofNat (n : Nat) : Binary := if n = 0 then ⟨0, 0⟩ else nearest n 1

def thousandth (b : Binary) : Binary := nearest b.numerator (1000 <<< b.scale)

def isWhole (b : Binary) : Bool := b.numerator % b.denominator = 0

/-- The number with two decimal places, or with none if it is whole. -/
def show2 (b : Binary) : String :=
  if b.isWhole then toString (b.numerator / b.denominator)
  else
    let hundredths := roundHalfEven (b.numerator * 100) b.denominator
    toString (hundredths / 100) ++ "." ++ toString (hundredths / 10 % 10) ++
      toString (hundredths % 10)

/-- Scales down to less than one thousand, unit by unit. -/
def showIn (b : Binary) : List String → String
  | [] => b.show2
  | [unit] => b.show2 ++ " " ++ unit
  | unit :: larger :: units =>
      if 1000 <<< b.scale ≤ b.numerator then showIn b.thousandth (larger :: units)
      else b.show2 ++ " " ++ unit

end Binary

def byteSize (n : Nat) : String :=
  (Binary.ofNat n).showIn ["B", "kB", "MB", "GB", "TB", "PB", "EB"]

end Docset.Text
