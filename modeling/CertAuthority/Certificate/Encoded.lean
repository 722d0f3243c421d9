import CertAuthority.Der.Value
import CertAuthority.Error

/-!
# Octets of finished structures

A structure that is put together from parts of any size may be too long for its length to be read
again; such a structure is refused before it is signed or given out.
-/

namespace CertAuthority

/-- The octets of an element whose length can be read. -/
def Der.Tlv.encoded (t : Der.Tlv) : Except Error Octets :=
  if t.content.length ≤ Der.maxLength then .ok t.encode else .error .der

end CertAuthority
