import Docset.Text.Display

/-!
# What can stop a scan

A pattern that cannot be compiled keeps a scan from being begun. Of the errors of a scan,
every one but the length limit points at a byte offset of the scanned text.
-/
namespace Docset.Scan

inductive Error where
  /-- A literal was expected and `found` stood there instead of a quote. -/
  | malformedLiteral (offset : Nat) (found : Char)
  /-- The text ended inside the literal whose quote stands at `offset`. -/
  | unterminatedLiteral (offset : Nat)
  /-- The brace at `offset` is not closed before the end of its window. -/
  | unbalancedBraces (offset : Nat)
  | missingGroupName (offset : Nat)
  | missingVariantName (offset : Nat)
  | inputTooLarge (length limit : Nat)
  /-- The pattern of a call could not be compiled. -/
  | invalidPattern (reason : String)
  deriving DecidableEq, Repr

namespace Error

def offset? : Error → Option Nat
  | malformedLiteral offset _ => some offset
  | unterminatedLiteral offset => some offset
  | unbalancedBraces offset => some offset
  | missingGroupName offset => some offset
  | missingVariantName offset => some offset
  | inputTooLarge _ _ => none
  | invalidPattern _ => none

def message : Error → String
  | malformedLiteral offset found =>
      "malformed literal at offset " ++ toString offset ++ ": expected a quote, found " ++
        Text.displayChar found
  | unterminatedLiteral offset => "unterminated literal starting at offset " ++ toString offset
  | unbalancedBraces offset =>
      "unbalanced braces: brace at offset " ++ toString offset ++ " is never closed"
  | missingGroupName offset => "missing story group name at offset " ++ toString offset
  | missingVariantName offset => "missing story variant name at offset " ++ toString offset
  | inputTooLarge length limit =>
      "input of " ++ toString length ++ " bytes exceeds the " ++ toString limit ++
        " byte scan limit"
  | invalidPattern reason => "invalid call pattern: " ++ reason

/-- What lies behind an error. -/
def causes : Error → List String
  | invalidPattern reason => [reason]
  | _ => []

end Error

end Docset.Scan
