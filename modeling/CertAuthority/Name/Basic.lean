import CertAuthority.Der.Value

/-!
# Names

A name is a sequence of relative names, from the most general to the most specific, and each
relative name is a set of attributes. Values keep their string type, so a name that came from outside
is written back as it was read, provided that its sets were in order.
-/

namespace CertAuthority

open Der

/-- One attribute of a name: its type and its value of any string type. -/
structure NameAttribute where
  /-- What kind of attribute it is. -/
  type : Oid
  /-- Its value with its string type. -/
  value : Any
deriving DecidableEq, Repr

namespace NameAttribute

def tlv (a : NameAttribute) : Tlv :=
  .sequence [.ofOid a.type, a.value.tlv]

def ofTlv? (t : Tlv) (shortest : Nat := shortestOid) : Option NameAttribute := do
  match ← t.inside? Tag.sequence with
  | [type, value] => return ⟨← type.toOid? shortest, ← Any.ofTlv? value⟩
  | _ => none

end NameAttribute

/-- One level of a name: a set of attributes. -/
structure RelativeName where
  attributes : List NameAttribute
  /-- Their DER forms are in ascending order. -/
  ascending : Tlv.ascending? (attributes.map NameAttribute.tlv) =
    some (attributes.map NameAttribute.tlv)
deriving DecidableEq, Repr

namespace RelativeName

/-- A part of a name with one attribute. -/
def single (a : NameAttribute) : RelativeName :=
  ⟨[a], rfl⟩

/-- The relative name of attributes that are in order. -/
def ofAttributes? (attributes : List NameAttribute) : Option RelativeName :=
  if h : Tlv.ascending? (attributes.map NameAttribute.tlv) =
      some (attributes.map NameAttribute.tlv) then
    some ⟨attributes, h⟩
  else none

def tlv (r : RelativeName) : Tlv :=
  .set (r.attributes.map NameAttribute.tlv)

/-- Reads the DER form of a relative name; its attributes are put in order. -/
def ofTlv? (t : Tlv) (shortest : Nat := shortestOid) : Option RelativeName := do
  let attributes ← Tlv.ascending? (← t.inside? Tag.set)
  ofAttributes? (← attributes.mapM fun t => NameAttribute.ofTlv? t shortest)

end RelativeName

/-- A name as it stands in a certificate. -/
structure Name where
  /-- The relative names, most general first. -/
  rdns : List RelativeName
deriving DecidableEq, Repr

namespace Name

def tlv (n : Name) : Tlv :=
  .sequence (n.rdns.map RelativeName.tlv)

def ofTlv? (t : Tlv) (shortest : Nat := shortestOid) : Option Name := do
  let rdns ← t.inside? Tag.sequence
  return ⟨← rdns.mapM fun t => RelativeName.ofTlv? t shortest⟩

def encode (n : Name) : Octets :=
  n.tlv.encode

end Name

end CertAuthority
