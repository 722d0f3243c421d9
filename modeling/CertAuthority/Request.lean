import CertAuthority.KeyUsage
import CertAuthority.PublicKeyInfo

/-!
# Requests

What somebody who wants a certificate asks for. Profiles decide which of the wishes count.
-/

namespace CertAuthority

/-- A request for a certificate. -/
structure Request where
  /-- The distinguished name of the subject. -/
  subjectDn : String
  /-- The alternative names of the subject. -/
  subjectAltName : Option String := none
  publicKey : PublicKeyInfo
  /-- The key usage; no bits are another wish than none. -/
  keyUsage : Option KeyUsage := none
  /-- The first second of validity, counted from 1970. -/
  notBefore : Option Nat := none
  notAfter : Option Nat := none
  /-- The directory attributes of the subject. -/
  directoryAttributes : Option String := none
  /-- Data for extensions that are not built in. -/
  customData : List (String × String) := []
deriving DecidableEq, Repr

end CertAuthority
