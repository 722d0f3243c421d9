import CertAuthority.Error
import CertAuthority.PublicKeyInfo
import CertAuthority.SignatureAlgorithm

/-!
# Signing keys

The authority reaches its keys through a signing key: whatever holds them answers four questions for
each purpose. Nothing is assumed of the answers; what is signed is verified before it is given out.
-/

namespace CertAuthority

/-- What holds the keys of an authority. -/
structure SigningKey where
  sign : Purpose → Octets → Except Error Octets
  /-- The public half of a key. -/
  publicKey : Purpose → Except Error PublicKeyInfo
  /-- Opens what was encrypted for a key. -/
  decrypt : Purpose → Octets → Except Error Octets
  /-- The algorithm of the signatures of a key. -/
  algorithm : Purpose → Except Error SignatureAlgorithm
  provider : String

end CertAuthority
