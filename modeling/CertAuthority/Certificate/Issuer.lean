import CertAuthority.Name.Basic
import CertAuthority.PublicKeyInfo

/-!
# The certificate of an authority

What an authority needs to know of its own certificate to sign in its name.
-/

namespace CertAuthority

/-- The certificate of an authority. -/
structure IssuerCertificate where
  der : Octets
  /-- Its subject; its DER form is the one in the certificate, octet by octet. -/
  subject : Name
  /-- The second after which it is not valid. -/
  notAfter : Nat
  /-- The content of its subject key identifier. -/
  subjectKeyId : Option Octets
  publicKey : PublicKeyInfo
deriving DecidableEq, Repr

end CertAuthority
