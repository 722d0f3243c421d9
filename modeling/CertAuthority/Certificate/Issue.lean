import CertAuthority.Certificate.Attach
import CertAuthority.Certificate.Encoded
import CertAuthority.Certificate.Validity
import CertAuthority.Certificate.Verify
import CertAuthority.Extension.Resolve
import CertAuthority.SigningKey

/-!
# Issuing certificates

A certificate is put together from a request, a profile that is ready to be used and the
configuration of the authority, signed, and verified before it is given out. The time and the drawn
octets of the serial number are given by the caller.
-/

namespace CertAuthority

open Der

/-- A certificate that was issued. -/
structure IssuedCertificate where
  der : Octets
  serial : SerialNumber
  notBefore : Nat
  notAfter : Nat
deriving DecidableEq, Repr

namespace IssuedCertificate

/-- The PEM form of a certificate that was issued. -/
def pem (c : IssuedCertificate) : Octets :=
  Pem.encode Pem.certificate c.der

end IssuedCertificate

namespace Authority

/-- The name of the subject: the requested one without the attributes that the profile drops and with
the suffix that it adds. -/
def subjectName (ca : Authority) (request : Request) (p : ResolvedProfile) : Except Error Name :=
  ExtensionContext.underHeading "subject DN" do
    let dn ← DistinguishedName.parse request.subjectDn
    let dn :=
      if p.profile.useSubjectDnSubset then dn.retainTypes p.parsed.subjectDnSubset else dn
    let dn := if p.profile.useCnPostfix then dn.appendToCommonNames p.profile.cnPostfix else dn
    dn.toName ca.dnEncoding

/-- The alternative names of the subject: the requested ones of the kinds that the profile keeps. -/
def subjectAltNames (request : Request) (p : ResolvedProfile) : Except Error (List AltName) := do
  let names ← ExtensionContext.underHeading "subject alternative name"
    (AltName.parse (request.subjectAltName.getD ""))
  return if p.profile.useSubjectAltNameSubset then
    AltName.retainKinds names p.profile.subjectAltNameSubset
  else names

/-- Puts the signed part of a certificate together. -/
def prepareCertificate (ca : Authority) (request : Request) (p : ResolvedProfile)
    (signerKey : PublicKeyInfo) (algorithm : SignatureAlgorithm) (window : Validity)
    (drawn : Octets) : Except Error TbsCertificate := do
  let subject ← ca.subjectName request p
  let altNames ← subjectAltNames request p
  let issuer ← ca.issuerName
  SerialNumber.checkWidth ca.serialNumberWidth
  let extensions ← ExtensionContext.resolve { request, altNames, resolved := p, ca, signerKey }
  return {
    version := TbsCertificate.v3
    serial := SerialNumber.draw ca.serialNumberWidth drawn
    signature := algorithm.identifier
    issuer
    notBefore := ← Timestamp.ofSeconds window.notBefore
    notAfter := ← Timestamp.ofSeconds window.notAfter
    subject
    publicKey := request.publicKey
    issuerUniqueId := none
    subjectUniqueId := none
    extensions := if extensions.isEmpty then none else some extensions }

/-- Issues a certificate: it is put together, signed, and verified with the key that the token reports. -/
def issue (ca : Authority) (request : Request) (p : ResolvedProfile) (key : SigningKey) (now : Nat)
    (drawn : Octets) : Except Error IssuedCertificate := do
  let signerKey ← key.publicKey .certSign
  let algorithm ← key.algorithm .certSign
  let window ← Validity.resolve now request p.profile (ca.certificate.map (·.notAfter))
  let tbs ← ca.prepareCertificate request p signerKey algorithm window drawn
  let signature ← key.sign .certSign (← tbs.tlv.encoded)
  let certificate : Certificate := ⟨tbs, algorithm.identifier, .ofOctets signature⟩
  let der ← certificate.tlv.encoded
  Verify.certificate der signerKey
  return { der, serial := tbs.serial, notBefore := window.notBefore, notAfter := window.notAfter }

end Authority

end CertAuthority
