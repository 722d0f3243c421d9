import CertAuthority.Pem

/-!
# What can go wrong with RSA keys
-/

namespace CertAuthority.Rsa

/-- The shortest modulus that keys may have, in bits. -/
def minModulusBits : Nat := 2048

/-- Why a key is refused or an operation with it fails. -/
inductive Error where
  | modulusTooSmall (bits : Nat)
  /-- The public exponent is not the one that is supported. -/
  | unsupportedExponent
  /-- A public key is for another algorithm. -/
  | notRsaKey
  /-- The text around a key is broken. -/
  | pem (cause : Pem.Error)
  /-- The octets are no consistent private key. -/
  | malformedPrivateKey
  /-- The octets are no public key. -/
  | malformedPublicKey
  /-- A message is too long for the key, or a ciphertext does not decrypt. -/
  | transport
  /-- A signature does not verify, or it cannot be made. -/
  | signature
deriving DecidableEq, Repr

/-- The wording of an error. -/
def Error.message : Error → String
  | modulusTooSmall bits =>
    "rsa: modulus of " ++ toString bits ++ " bits is below " ++ toString minModulusBits
  | unsupportedExponent => "rsa: public exponent must be 65537"
  | notRsaKey => "rsa: subjectPublicKeyInfo is not rsaEncryption"
  | pem cause => cause.message
  | malformedPrivateKey => "malformed private key"
  | malformedPublicKey => "malformed public key"
  | transport => "key transport failed"
  | signature => "signature error"

end CertAuthority.Rsa
