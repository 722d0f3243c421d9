import CertAuthority.Extension.Basic

/-!
# Basic constraints and extended key usage

Whether a subject is an authority, and what its key may be used for beyond the key usage.
-/

namespace CertAuthority

open Der

/-- Whether a subject is an authority. -/
structure BasicConstraints where
  isCa : Bool
  /-- How many authorities may follow below it. -/
  pathLength : Option Nat
deriving DecidableEq, Repr

namespace BasicConstraints

/-- The DER form of basic constraints; who is no authority is not mentioned. -/
def tlv (c : BasicConstraints) : Tlv :=
  .sequence ((if c.isCa then [.ofBool true] else []) ++
    c.pathLength.toList.map fun n => .ofInt (Int.ofNat n))

def ofTlv? (t : Tlv) : Option BasicConstraints := do
  match ← t.inside? Tag.sequence with
  | [] => return ⟨false, none⟩
  | [x] =>
    if x.tag = Tag.boolean then return ⟨← x.toBool?, none⟩ else return ⟨false, some (← x.toNat?)⟩
  | [isCa, n] => return ⟨← isCa.toBool?, some (← n.toNat?)⟩
  | _ => none

end BasicConstraints

namespace ExtendedKeyUsage

def tlv (purposes : List Oid) : Tlv :=
  .sequence (purposes.map .ofOid)

def ofTlv? (t : Tlv) : Option (List Oid) := do
  (← t.inside? Tag.sequence).mapM fun t => t.toOid?

end ExtendedKeyUsage

end CertAuthority
