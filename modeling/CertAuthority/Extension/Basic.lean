import CertAuthority.Der.Value
import CertAuthority.Error
import CertAuthority.Oid.Known

/-!
# Extensions

An extension of a certificate, a revocation list or an entry of one has an identifier, a mark that
says whether who does not know it must refuse, and a value whose form the identifier decides.
-/

namespace CertAuthority

open Der

/-- An extension. -/
structure Extension where
  oid : Oid
  critical : Bool
  value : Octets
deriving DecidableEq, Repr

namespace Extension

/-- The extension with the DER octets of an element for its value. -/
def ofElement (oid : Oid) (critical : Bool) (value : Tlv) : Extension :=
  ⟨oid, critical, value.encode⟩

/-- The DER form of an extension; the mark is left out where it is not set. -/
def tlv (e : Extension) : Tlv :=
  .sequence (.ofOid e.oid :: (if e.critical then [.ofBool true] else []) ++ [.ofOctets e.value])

/-- Reads the DER form of an extension. A mark that is not set may be there. -/
def ofTlv? (t : Tlv) (shortest : Nat := shortestOid) : Option Extension := do
  match ← t.inside? Tag.sequence with
  | [oid, value] => return ⟨← oid.toOid? shortest, false, ← value.toOctets?⟩
  | [oid, critical, value] =>
    return ⟨← oid.toOid? shortest, ← critical.toBool?, ← value.toOctets?⟩
  | _ => none

/-- The DER form of extensions, in their order. -/
def listTlv (es : List Extension) : Tlv :=
  .sequence (es.map tlv)

/-- Reads the DER form of extensions. -/
def listOfTlv? (t : Tlv) (shortest : Nat := shortestOid) : Option (List Extension) := do
  (← t.inside? Tag.sequence).mapM fun t => ofTlv? t shortest

/-- Adds an extension to others. No two may have the same identifier. -/
def append (es : List Extension) (e : Extension) : Except Error (List Extension) :=
  if es.any fun other => other.oid = e.oid then
    .error (.invalidProfile ("extension " ++ e.oid.text ++ " included more than once"))
  else .ok (es ++ [e])

end Extension

end CertAuthority
