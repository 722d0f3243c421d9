import CertAuthority.Certificate.Encoded
import CertAuthority.Certificate.Validity
import CertAuthority.Certificate.Verify
import CertAuthority.Extension.KeyIdentifier
import CertAuthority.Pem
import CertAuthority.RevocationList.Basic
import CertAuthority.SigningKey

/-!
# Issuing revocation lists

A revocation list is put together from its entries, in their order, signed, and verified before it is
given out.
-/

namespace CertAuthority

open Der

/-- A certificate to be revoked. -/
structure RevocationEntry where
  serial : SerialNumber
  /-- The second since which it is revoked. -/
  revokedAt : Nat
  reason : RevocationReason := .unspecified
deriving DecidableEq, Repr

/-- A revocation list that was issued. -/
structure IssuedRevocationList where
  der : Octets
  number : Nat
  /-- The second since which it is current. -/
  thisUpdate : Nat
  /-- The second until which there will be a newer one. -/
  nextUpdate : Nat
deriving DecidableEq, Repr

namespace IssuedRevocationList

/-- The PEM form of a list that was issued. -/
def pem (l : IssuedRevocationList) : Octets :=
  Pem.encode Pem.revocationList l.der

end IssuedRevocationList

namespace RevocationEntry

/-- The extensions of an entry; a reason that nobody gave is not written. -/
def extensions (e : RevocationEntry) : Option (List Extension) :=
  if e.reason = .unspecified then none
  else some [.ofElement Oid.reasonCode false e.reason.tlv]

/-- The entry of a list for a certificate that was revoked. -/
def revoked (e : RevocationEntry) : Except Error RevokedCertificate := do
  return { serial := e.serial, date := ← Timestamp.ofSeconds e.revokedAt,
           extensions := e.extensions }

end RevocationEntry

namespace Authority

/-- The seconds of an hour. -/
def secondsPerHour : Nat := 3600

/-- Until when a revocation list of now is current; the time must be one of 64 bits. -/
def nextUpdate (ca : Authority) (now : Nat) : Except Error Nat :=
  let next := now + ca.crlPeriodHours * secondsPerHour
  if next ≤ maxTime then .ok next else .error (.invalidProfile "CRL period out of range")

/-- The extensions of a list. -/
def listExtensions (ca : Authority) (signerKey : PublicKeyInfo) (number : Nat) : List Extension :=
  (if ca.useAuthorityKeyIdentifier then
    [KeyIdentifier.authority ca.authorityKeyIdentifierCritical signerKey.keyIdentifier] else []) ++
  if ca.useCrlNumber then
    [.ofElement Oid.crlNumber ca.crlNumberCritical (.ofInt number)] else []

/-- Puts the signed part of a revocation list together. -/
def prepareRevocationList (ca : Authority) (entries : List RevocationEntry) (number : Nat)
    (signerKey : PublicKeyInfo) (algorithm : SignatureAlgorithm) (now next : Nat) :
    Except Error TbsRevocationList := do
  let revoked ← entries.mapM RevocationEntry.revoked
  let extensions := ca.listExtensions signerKey number
  return {
    version := TbsRevocationList.v2
    signature := algorithm.identifier
    issuer := ← ca.issuerName
    thisUpdate := ← Timestamp.ofSeconds now
    nextUpdate := some (← Timestamp.ofSeconds next)
    revoked := if revoked.isEmpty then none else some revoked
    extensions := if extensions.isEmpty then none else some extensions }

/-- Issues a revocation list: it is put together, signed, and verified with the key that the token reports. -/
def issueRevocationList (ca : Authority) (entries : List RevocationEntry) (number : Nat)
    (key : SigningKey) (now : Nat) : Except Error IssuedRevocationList := do
  let signerKey ← key.publicKey .crlSign
  let algorithm ← key.algorithm .crlSign
  let next ← ca.nextUpdate now
  let tbs ← ca.prepareRevocationList entries number signerKey algorithm now next
  let signature ← key.sign .crlSign (← tbs.tlv.encoded)
  let list : RevocationList := ⟨tbs, algorithm.identifier, .ofOctets signature⟩
  let der ← list.tlv.encoded
  Verify.revocationList der signerKey
  return { der, number, thisUpdate := now, nextUpdate := next }

end Authority

end CertAuthority
