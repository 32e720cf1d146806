/-!
# Scanner settings

The names of the two calls that matter, and a limit on the length of a text.
-/
namespace Docset.Scan

/-- Texts of up to four mebibytes are scanned unless the settings say otherwise. -/
def defaultMaxInputLength : UInt64 := 4194304

structure Options where
  /-- Name of the function that opens a group. -/
  groupCall : String := "storiesOf"
  /-- Name of the method that adds a variant. -/
  variantMethod : String := "add"
  /-- Most bytes a text may have; no limit if unset. -/
  maxInputLength : Option UInt64 := some defaultMaxInputLength
  deriving DecidableEq, Repr

instance : Inhabited Options := ⟨{}⟩

end Docset.Scan
