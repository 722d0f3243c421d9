import CertAuthority.Der.Tlv

/-!
# Optional fields

Structures mark their optional fields with context-specific tags in ascending order. Taking a field
from the elements of a structure gives the field, if it is there, and what comes after it.
-/

namespace CertAuthority.Der.Field

/-- Whether an element has a context-specific tag with a number below the given one. -/
def isBefore (n : UInt8) (t : Tlv) : Bool :=
  0x80 ≤ t.tag && t.tag < 0xC0 && t.tag % 32 < n

/-- Whether an element has a context-specific tag with the given number. -/
def isNumbered (n : UInt8) (t : Tlv) : Bool :=
  0x80 ≤ t.tag && t.tag < 0xC0 && t.tag % 32 == n

/-- Takes the optional field with a number from the front of the rest of a structure. Fields with
smaller numbers in front of it are passed over. -/
def take (n : UInt8) (ts : List Tlv) : Option Tlv × List Tlv :=
  match ts.dropWhile (isBefore n) with
  | [] => (none, [])
  | t :: rest => if isNumbered n t then (some t, rest) else (none, t :: rest)

/-- Reads a field that may be missing. -/
def optional {α : Type} (read : Tlv → Option α) : Option Tlv → Option (Option α)
  | none => some none
  | some t => (read t).map some

end CertAuthority.Der.Field
