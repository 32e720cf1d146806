import Docset.Json.Basic

/-!
# Reading records

A record is written as an object or as an array of its fields in order. In an
object, members that are no field of the record are passed over, and a field
given twice is an error, also when two spellings of it are used. In an array,
fields may be missing from the end. Whether a missing field is an error is for
the field to say; a field that may be null counts as null when an object leaves
it out, but an array has to give it.
-/
namespace Docset.Json

/-- How a record gives one of its fields. -/
inductive Slot where
  | given (v : Json)
  /-- The record is an object without a member for the field. -/
  | omitted
  /-- The record is an array that ends before the field. -/
  | cutOff

/-- The slot of a field with the spellings `names` in an object. -/
def memberSlot? (members : List (String × Json)) (names : List String) : Option Slot :=
  match members.filter fun m => names.contains m.1 with
  | [] => some .omitted
  | [m] => some (.given m.2)
  | _ => none

/-- The slots of a record's fields, each field given by its spellings. -/
def slots? (fields : List (List String)) : Json → Option (List Slot)
  | .object members => fields.mapM (memberSlot? members)
  | .array items =>
      if fields.length < items.length then none
      else some (items.map .given ++ List.replicate (fields.length - items.length) .cutOff)
  | _ => none

namespace Slot

/-- A field that has to be there. -/
def required {α : Type} (read? : Json → Option α) : Slot → Option α
  | given v => read? v
  | _ => none

/-- A field with a default. -/
def orDefault {α : Type} (default : α) (read? : Json → Option α) : Slot → Option α
  | given v => read? v
  | _ => some default

/-- A field that may be null. -/
def nullable {α : Type} (read? : Json → Option (Option α)) : Slot → Option (Option α)
  | given v => read? v
  | omitted => some none
  | cutOff => none

end Slot

def asString? : Json → Option String
  | .string s => some s
  | _ => none

def asBool? : Json → Option Bool
  | .bool b => some b
  | _ => none

/-- An unsigned integer of 64 bits. -/
def asUInt64? : Json → Option UInt64
  | .natural n => if n < UInt64.size then some (UInt64.ofNat n) else none
  | _ => none

def asList? {α : Type} (read? : Json → Option α) : Json → Option (List α)
  | .array items => items.mapM read?
  | _ => none

/-- The members of an object whose values are read alike. -/
def asMembers? {α : Type} (read? : Json → Option α) : Json → Option (List (String × α))
  | .object members => members.mapM fun m => (read? m.2).map (m.1, ·)
  | _ => none

/-- A value or null. -/
def asOption? {α : Type} (read? : Json → Option α) : Json → Option (Option α)
  | .null => some none
  | v => (read? v).map some

def ofStrings (ss : List String) : Json := .array (ss.map .string)

def ofUInt64 (n : UInt64) : Json := .natural n.toNat

/-- Null if unset. -/
def ofOption {α : Type} (write : α → Json) : Option α → Json
  | none => .null
  | some a => write a

end Docset.Json
