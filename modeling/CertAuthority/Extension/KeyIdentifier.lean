import CertAuthority.Extension.Basic

/-!
# Key identifiers

The extensions that name the key of the subject and the key of the authority.
-/

namespace CertAuthority.KeyIdentifier

open Der

/-- The name of the subject's key is its octets. -/
def subjectTlv (id : Octets) : Tlv :=
  .ofOctets id

def subjectOfTlv? (t : Tlv) : Option Octets :=
  t.toOctets?

/-- The value that names the authority's key; nothing but the key is named. -/
def authorityTlv (id : Octets) : Tlv :=
  .sequence [⟨Tag.context 0, id⟩]

/-- Reads a value that names the authority's key and nothing else. -/
def authorityOfTlv? (t : Tlv) : Option Octets := do
  match ← t.inside? Tag.sequence with
  | [id] => id.content? (Tag.context 0)
  | _ => none

/-- The extension with the name of the authority's key. -/
def authority (critical : Bool) (id : Octets) : Extension :=
  .ofElement Oid.authorityKeyIdentifier critical (authorityTlv id)

end CertAuthority.KeyIdentifier
