import CertAuthority.Certificate.Basic
import CertAuthority.Config.Authority
import CertAuthority.Extension.KeyIdentifier
import CertAuthority.Lenient.Signed
import CertAuthority.Pem

/-!
# Attaching a certificate to an authority

The certificate of an authority comes from outside. Its subject becomes the issuer of everything that
the authority signs, octet by octet, so a subject that would be written in another way is refused.
-/

namespace CertAuthority

open Der

namespace IssuerCertificate

/-- The content of the first subject key identifier among extensions, if there is one. -/
def subjectKeyId? (extensions : List Extension) : Except Error (Option Octets) :=
  match extensions.find? fun e => e.oid = Oid.subjectKeyIdentifier with
  | none => .ok none
  | some e =>
    match (Tlv.decode? e.value).bind KeyIdentifier.subjectOfTlv? with
    | some id => .ok (some id)
    | none => .error (.invalidCaCertificate "subject key identifier: malformed value")

/-- Reads the certificate of an authority. Both readers must accept it. -/
def inspect (der : Octets) : Except Error IssuerCertificate := do
  let some (signed, rest) := Lenient.certificate? der
    | throw (.invalidCaCertificate "failed to decode: malformed structure")
  if !rest.isEmpty then throw (.invalidCaCertificate "trailing data after DER")
  let some certificate := Certificate.decode? der
    | throw (.invalidCaCertificate "failed to decode: malformed certificate")
  let some subject := (Tlv.decode? signed.part.subject).bind fun t => Name.ofTlv? t
    | throw (.invalidCaCertificate "subject: malformed name")
  if subject.encode ≠ signed.part.subject then
    throw (.invalidCaCertificate "subject DN is not canonically encoded")
  let subjectKeyId ← subjectKeyId? (certificate.tbs.extensions.getD [])
  return {
    der, subject, subjectKeyId
    notAfter := certificate.tbs.notAfter.seconds
    publicKey := certificate.tbs.publicKey }

end IssuerCertificate

namespace Authority

/-- An authority with a certificate, in place of any other. -/
def attach (ca : Authority) (der : Octets) : Except Error Authority := do
  return { ca with certificate := some (← IssuerCertificate.inspect der) }

/-- Attaches a certificate in its PEM form. -/
def attachPem (ca : Authority) (text : Octets) : Except Error Authority := do
  let der ← (Pem.decodeLabeled Pem.certificate text).mapError fun e =>
    .invalidCaCertificate e.message
  ca.attach der

end Authority

end CertAuthority
