import CertAuthority.Certificate.Issue
import CertAuthority.Proofs.Certificate.RoundTrip
import CertAuthority.Proofs.Error
import CertAuthority.SoftToken

/-!
# What issuing a certificate goes through

Issuing is a sequence of steps, each of which may fail. `IssueRun` holds the results of the steps of a
run that did not fail, and `exists_issueRun` finds them; nothing later looks into the steps again.
`Sample` is a small authority with which runs can be made.
-/

namespace CertAuthority

open Der

/-- An element is given out exactly if it is not too long. -/
lemma encoded_eq_ok_iff {t : Tlv} {bs : Octets} : t.encoded = .ok bs ↔ t.Fits ∧ bs = t.encode := by
  unfold Tlv.encoded Tlv.Fits
  split
  · rename_i h
    simp [h, eq_comm]
  · rename_i h
    simp [h]

namespace Authority

/-- The parts from which the signed part of a certificate is put together. -/
structure PreparedParts (ca : Authority) (request : Request) (p : ResolvedProfile)
    (signerKey : PublicKeyInfo) where
  subject : Name
  altNames : List AltName
  issuer : Name
  extensions : List Extension
  /-- The name of the subject is the one that the request asks for. -/
  subject_eq : ca.subjectName request p = .ok subject
  /-- The alternative names are those that the request asks for. -/
  altNames_eq : subjectAltNames request p = .ok altNames
  /-- The name of the issuer is that of the authority. -/
  issuer_eq : ca.issuerName = .ok issuer
  extensions_eq :
    ExtensionContext.resolve { request, altNames, resolved := p, ca, signerKey } = .ok extensions

/-- A signed part that was put together has its parts where they belong. -/
structure IsPrepared (ca : Authority) (request : Request) {p : ResolvedProfile}
    {signerKey : PublicKeyInfo} (algorithm : SignatureAlgorithm) (window : Validity)
    (drawn : Octets) (parts : PreparedParts ca request p signerKey) (tbs : TbsCertificate) : Prop
    where
  version : tbs.version = TbsCertificate.v3
  serial : tbs.serial = SerialNumber.draw ca.serialNumberWidth drawn
  width : SerialNumber.checkWidth ca.serialNumberWidth = .ok ()
  signature : tbs.signature = algorithm.identifier
  issuer : tbs.issuer = parts.issuer
  notBefore : tbs.notBefore.seconds = window.notBefore
  notAfter : tbs.notAfter.seconds = window.notAfter
  subject : tbs.subject = parts.subject
  publicKey : tbs.publicKey = request.publicKey
  issuerUniqueId : tbs.issuerUniqueId = none
  subjectUniqueId : tbs.subjectUniqueId = none
  extensions : tbs.extensions = if parts.extensions.isEmpty then none else some parts.extensions

/-- A time that has a form is the second that it was made from. -/
lemma eq_of_ofSeconds {n : Nat} {t : Timestamp} (h : Timestamp.ofSeconds n = .ok t) :
    t.seconds = n := by
  unfold Timestamp.ofSeconds at h
  split at h
  · cases h
    rfl
  · cases h

/-- A signed part that could be put together was put together from its parts. -/
lemma exists_isPrepared {ca : Authority} {request : Request} {p : ResolvedProfile}
    {signerKey : PublicKeyInfo} {algorithm : SignatureAlgorithm} {window : Validity} {drawn : Octets}
    {tbs : TbsCertificate}
    (h : ca.prepareCertificate request p signerKey algorithm window drawn = .ok tbs) :
    ∃ parts : PreparedParts ca request p signerKey,
      IsPrepared ca request algorithm window drawn parts tbs := by
  simp only [prepareCertificate, bind_eq_ok_iff, pure_eq_ok_iff] at h
  obtain ⟨subject, hs, altNames, ha, issuer, hi, _, hw, extensions, he, nb, hnb, na, hna, rfl⟩ := h
  exact ⟨⟨subject, altNames, issuer, extensions, hs, ha, hi, he⟩,
    ⟨rfl, rfl, hw, rfl, rfl, eq_of_ofSeconds hnb, eq_of_ofSeconds hna, rfl, rfl, rfl, rfl, rfl⟩⟩

/-- The results of the steps of issuing a certificate. -/
structure IssueRun (ca : Authority) (request : Request) (p : ResolvedProfile) (key : SigningKey)
    (now : Nat) (drawn : Octets) (cert : IssuedCertificate) where
  signerKey : PublicKeyInfo
  algorithm : SignatureAlgorithm
  tbs : TbsCertificate
  signature : Octets
  /-- The public key is the one that the token reports. -/
  signerKey_eq : key.publicKey .certSign = .ok signerKey
  algorithm_eq : key.algorithm .certSign = .ok algorithm
  window_eq : Validity.resolve now request p.profile (ca.certificate.map (·.notAfter)) =
    .ok ⟨cert.notBefore, cert.notAfter⟩
  tbs_eq : ca.prepareCertificate request p signerKey algorithm ⟨cert.notBefore, cert.notAfter⟩ drawn =
    .ok tbs
  tbs_fits : tbs.tlv.Fits
  signature_eq : key.sign .certSign tbs.tlv.encode = .ok signature
  fits : (Certificate.tlv ⟨tbs, algorithm.identifier, .ofOctets signature⟩).Fits
  der_eq : cert.der = (Certificate.tlv ⟨tbs, algorithm.identifier, .ofOctets signature⟩).encode
  verified : Verify.certificate cert.der signerKey = .ok ()
  serial_eq : cert.serial = tbs.serial

/-- A certificate that was issued went through all steps. -/
lemma exists_issueRun {ca : Authority} {request : Request} {p : ResolvedProfile} {key : SigningKey}
    {now : Nat} {drawn : Octets} {cert : IssuedCertificate}
    (h : ca.issue request p key now drawn = .ok cert) :
    Nonempty (IssueRun ca request p key now drawn cert) := by
  simp only [issue, bind_eq_ok_iff, pure_eq_ok_iff, encoded_eq_ok_iff] at h
  obtain ⟨signerKey, hk, algorithm, ha, ⟨nb, na⟩, hw, tbs, ht, _, ⟨hfit, rfl⟩, signature,
    hs, der, ⟨hf, hd⟩, _, hv, rfl⟩ := h
  exact ⟨⟨signerKey, algorithm, tbs, signature, hk, ha, hw, ht, hfit, hs, hf, hd, hv, rfl⟩⟩

/-- What is left of issuing a certificate when its signature is there. -/
def finishCertificate (tbs : TbsCertificate) (signerKey : PublicKeyInfo)
    (algorithm : SignatureAlgorithm) (window : Validity) (signature : Octets) :
    Except Error IssuedCertificate := do
  let der ← (Certificate.tlv ⟨tbs, algorithm.identifier, .ofOctets signature⟩).encoded
  Verify.certificate der signerKey
  return { der, serial := tbs.serial, notBefore := window.notBefore, notAfter := window.notAfter }

/-- Issuing asks a key that reports the same to sign the same octets, and depends on its answer only. -/
lemma issue_eq {ca : Authority} {request : Request} {p : ResolvedProfile} {key : SigningKey}
    {now : Nat} {drawn : Octets} {signerKey : PublicKeyInfo} {algorithm : SignatureAlgorithm}
    {window : Validity} {tbs : TbsCertificate} (hk : key.publicKey .certSign = .ok signerKey)
    (ha : key.algorithm .certSign = .ok algorithm)
    (hw : Validity.resolve now request p.profile (ca.certificate.map (·.notAfter)) = .ok window)
    (ht : ca.prepareCertificate request p signerKey algorithm window drawn = .ok tbs)
    (hf : tbs.tlv.Fits) : ca.issue request p key now drawn =
      key.sign .certSign tbs.tlv.encode >>= finishCertificate tbs signerKey algorithm window := by
  have he : tbs.tlv.encoded = .ok tbs.tlv.encode := encoded_eq_ok_iff.2 ⟨hf, rfl⟩
  rw [issue, hk, ha, hw]
  simp only [ok_bind, ht, he]
  rfl

end Authority

namespace Sample

def prime1 : Nat := Nat.pow 2 1024 + 643

def prime2 : Nat := Nat.pow 2 1024 + 1081

def privateKey : Rsa.PrivateKey where
  modulus := prime1 * prime2
  exponent := (Rsa.inverse? Rsa.publicExponent ((prime1 - 1) * (prime2 - 1))).getD 0
  prime1 := prime1
  prime2 := prime2
  longEnough := by decide +kernel
  product := rfl
  inverts1 := by decide +kernel
  inverts2 := by decide +kernel

def token : SoftToken where
  keys _ := some ⟨privateKey, .sha256WithRsa⟩

def profile : ResolvedProfile where
  profile := {
    useKeyUsage := false, useExtendedKeyUsage := false, useSubjectKeyIdentifier := false,
    useAuthorityKeyIdentifier := false, useSubjectAltName := false }
  parsed := {}
  plugins := []

def request : Request where
  subjectDn := "CN=a"
  publicKey := ⟨.withNull Oid.rsaEncryption, .ofOctets [1, 2, 3]⟩

def authority : Authority where
  subjectDn := "CN=b"

def now : Nat := 1750000000

/-- The authority issues a certificate for the request, and a short one. -/
lemma exists_issue : ∃ cert, authority.issue request profile token.signingKey now [1, 2, 3] = .ok cert ∧
    cert.der.length ≤ 1000 := by
  have hrun : ((authority.issue request profile token.signingKey now [1, 2, 3]).map fun cert =>
      decide (cert.der.length ≤ 1000)) = .ok true := by
    decide +kernel
  obtain ⟨cert, hissue, hshort⟩ := map_eq_ok_iff.1 hrun
  exact ⟨cert, hissue, of_decide_eq_true hshort⟩

end Sample

end CertAuthority
