import CertAuthority.Oid.Known
import CertAuthority.PublicKeyInfo
import CertAuthority.Rsa.Arithmetic
import CertAuthority.Rsa.Error

/-!
# RSA public keys

A public key is a modulus of at least 2048 bits; the public exponent is always 65537. Keys are read
from their general form, `PublicKeyInfo`, and written to it.
-/

namespace CertAuthority.Rsa

open Der

/-- The only public exponent that keys have. -/
def publicExponent : Nat := 65537

/-- The bound of the public exponents that are read, 33 bits. -/
def exponentBound : Nat := 0x200000000

/-- The longest modulus that is read from a public key, in bits. -/
def maxPublicModulusBits : Nat := 4096

/-- A public key. -/
structure PublicKey where
  modulus : Nat
  longEnough : minModulusBits ≤ bitLength modulus
deriving DecidableEq, Repr

/-- Refuses a modulus that is too short, then an exponent that is not supported. -/
def checkParts (modulus exponent : Nat) : Except Error (PLift (minModulusBits ≤ bitLength modulus)) :=
  if h : minModulusBits ≤ bitLength modulus then
    if exponent = publicExponent then .ok ⟨h⟩ else .error .unsupportedExponent
  else .error (.modulusTooSmall (bitLength modulus))

namespace PublicKey

/-- The number of octets of the modulus, and so of signatures and ciphertexts. -/
def size (k : PublicKey) : Nat :=
  Octets.byteLength k.modulus

/-- The form in which a key stands in certificates. -/
def info (k : PublicKey) : PublicKeyInfo where
  algorithm := .withNull Oid.rsaEncryption
  key := .ofOctets (Tlv.sequence [.ofInt k.modulus, .ofInt publicExponent]).encode

/-- The DER octets of a key. -/
def encode (k : PublicKey) : Octets :=
  k.info.encode

/-- The PEM form of a key. -/
def pem (k : PublicKey) : Octets :=
  Pem.encode Pem.publicKey k.encode

/-- The modulus and the exponent in a general public key, if they are in their ranges. -/
def parts? (k : PublicKeyInfo) : Option (Nat × Nat) := do
  if k.algorithm ≠ .withNull Oid.rsaEncryption || k.key.unused ≠ 0 then none
  match ← (← Tlv.decode? k.key.octets).inside? Tag.sequence with
  | [modulus, exponent] =>
    let n ← modulus.toNat?
    let e ← exponent.toNat?
    if bitLength n ≤ maxPublicModulusBits && 2 ≤ e && e < exponentBound then some (n, e) else none
  | _ => none

/-- Reads a key from the form in which it stands in certificates. -/
def read (k : PublicKeyInfo) : Except Error PublicKey :=
  match parts? k with
  | none => .error .malformedPublicKey
  | some (n, e) => do
    let large ← checkParts n e
    return ⟨n, large.down⟩

/-- The key that a general public key holds; a key for another algorithm is told apart. -/
def ofInfo (k : PublicKeyInfo) : Except Error PublicKey :=
  if k.algorithm.algorithm = Oid.rsaEncryption then read k else .error .notRsaKey

/-- Reads a key from its DER octets. -/
def decode (bs : Octets) : Except Error PublicKey :=
  match PublicKeyInfo.decode? bs with
  | none => .error .malformedPublicKey
  | some k => read k

/-- Reads a key from its PEM form. -/
def ofPem (text : Octets) : Except Error PublicKey := do
  decode (← (Pem.decodeLabeled Pem.publicKey text).mapError .pem)

end PublicKey

end CertAuthority.Rsa
