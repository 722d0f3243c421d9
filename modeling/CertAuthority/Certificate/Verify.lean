import CertAuthority.Error
import CertAuthority.Lenient.Signed
import CertAuthority.Rsa.Pkcs1

/-!
# Verification of signed structures

Everything that is signed is read again, by the lenient reader, and its signature is checked with the
key that should have made it. The checks are made in a fixed order, and the first that fails is
reported.
-/

namespace CertAuthority.Verify

open Lenient

/-- The failure of a check of a kind of structure. -/
def failure (what details : String) : Error :=
  .integrity (what ++ ": " ++ details)

/-- The supported algorithm that an identifier names. -/
def algorithm? (a : Algorithm) : Option SignatureAlgorithm := do
  let arcs ← arcs? a.oid
  [.sha256WithRsa, .sha384WithRsa, .sha512WithRsa].find? fun s => s.oid.arcs = arcs

/-- Checks the signature of a structure that was read. -/
def signature (what : String) (s : Signed) (signer : PublicKeyInfo) : Except Error Unit := do
  let some algorithm := algorithm? s.algorithm | throw (failure what "unsupported signature algorithm")
  let key ← (Rsa.PublicKey.ofInfo signer).mapError fun e =>
    failure what ("unusable signer key: " ++ e.message)
  if key.verify algorithm s.part.octets s.signature then return ()
  else throw (failure what "signature does not verify: signature error")

/-- Checks a signed structure with the reader for its kind. -/
def structureWith (what : String) (read? : Octets → Option (Signed × Octets)) (der : Octets)
    (signer : PublicKeyInfo) : Except Error Unit := do
  let some (s, rest) := read? der | throw (failure what "failed to decode: malformed structure")
  if !rest.isEmpty then throw (failure what "trailing data after DER")
  if s.algorithm ≠ s.part.algorithm then
    throw (failure what "outer and inner signature algorithms differ")
  signature what s signer

/-- Checks that octets are a certificate that a key signed. -/
def certificate (der : Octets) (signer : PublicKeyInfo) : Except Error Unit :=
  structureWith "certificate" certificate? der signer

/-- Checks that octets are a revocation list that a key signed. -/
def revocationList (der : Octets) (signer : PublicKeyInfo) : Except Error Unit :=
  structureWith "CRL" revocationList? der signer

end CertAuthority.Verify
