import CertAuthority.Proofs.Certificate.Fields
import CertAuthority.Proofs.Name.Encoded

/-!
# The names in the certificate of a root

While an authority has no certificate, what it issues is issued in its configured name. The subject is the
requested name as the profile changes it, and nobody compares the two. Names are written in one way only
(`DistinguishedName.eq_of_toName`, `Name.encode_inj`), so that issuer and subject have the same octets exactly if
the configured name is the requested one after these changes (`Authority.root_names_iff`).
-/

namespace CertAuthority

open Der

/-- The requested name of a subject as a profile changes it: without the attributes that it drops and with the
suffix that it adds. -/
def ResolvedProfile.changed (p : ResolvedProfile) (dn : DistinguishedName) : DistinguishedName :=
  let kept := if p.profile.useSubjectDnSubset then dn.retainTypes p.parsed.subjectDnSubset else dn
  if p.profile.useCnPostfix then kept.appendToCommonNames p.profile.cnPostfix else kept

namespace Authority

variable {ca : Authority} {request : Request} {p : ResolvedProfile} {key : SigningKey} {now : Nat}
  {drawn : Octets} {cert : IssuedCertificate}

/-- The name of a subject is the requested one as the profile changes it. -/
lemma subjectName_eq_ok_iff {subject : Name} : ca.subjectName request p = .ok subject ↔
    ∃ dn, DistinguishedName.parse request.subjectDn = .ok dn ∧
      (p.changed dn).toName ca.dnEncoding = .ok subject := by
  simp only [subjectName, ExtensionContext.underHeading, mapError_eq_ok_iff, bind_eq_ok_iff]
  rfl

/-- An authority without a certificate issues in its configured name. -/
lemma issuerName_eq_ok_iff {issuer : Name} (h : ca.certificate = none) : ca.issuerName = .ok issuer ↔
    ∃ dn, DistinguishedName.parse ca.subjectDn = .ok dn ∧ dn.toName ca.dnEncoding = .ok issuer := by
  simp only [issuerName, h, encodedSubject, ParsedProfile.underHeading, mapError_eq_ok_iff, bind_eq_ok_iff]

/-- The names in a certificate that was issued are not too long. -/
lemma IssueRun.fits_names (run : IssueRun ca request p key now drawn cert) :
    run.tbs.issuer.tlv.Fits ∧ run.tbs.subject.tlv.Fits := by
  have hfits := run.tbs_fits
  rw [TbsCertificate.tlv_eq] at hfits
  constructor
  · exact hfits.of_mem (by simp [TbsCertificate.fields, TbsCertificate.fixedFields])
  · exact hfits.of_mem (by simp [TbsCertificate.fields, TbsCertificate.fixedFields])

/-- The issuer of the certificate of a root is the configured name, its subject is the requested name as the
profile changes it, and they have the same octets exactly if these are the same. -/
theorem root_names_iff (hroot : ca.certificate = none) (h : ca.issue request p key now drawn = .ok cert) :
    ∃ configured requested issuer subject,
      DistinguishedName.parse ca.subjectDn = .ok configured ∧
      DistinguishedName.parse request.subjectDn = .ok requested ∧
      configured.toName ca.dnEncoding = .ok issuer ∧
      (p.changed requested).toName ca.dnEncoding = .ok subject ∧
      Certificate.issuerOctets? cert.der = some issuer.encode ∧
      Certificate.subjectOctets? cert.der = some subject.encode ∧
      (issuer.encode = subject.encode ↔ configured = p.changed requested) := by
  obtain ⟨run⟩ := exists_issueRun h
  obtain ⟨parts, hp⟩ := exists_isPrepared run.tbs_eq
  obtain ⟨hissuer, hsubject⟩ := run.fits_names
  obtain ⟨configured, hconfigured, hissuerName⟩ := (issuerName_eq_ok_iff hroot).1 parts.issuer_eq
  obtain ⟨requested, hrequested, hsubjectName⟩ := subjectName_eq_ok_iff.1 parts.subject_eq
  rw [← hp.issuer] at hissuerName
  rw [← hp.subject] at hsubjectName
  refine ⟨configured, requested, run.tbs.issuer, run.tbs.subject, hconfigured, hrequested, hissuerName,
    hsubjectName, run.issuerOctets?_eq, run.subjectOctets?_eq, ?_⟩
  rw [Name.encode_inj hissuer hsubject]
  constructor
  · intro hsame
    rw [hsame] at hissuerName
    exact DistinguishedName.eq_of_toName hissuerName hsubjectName
  · intro hsame
    rw [← hsame, hissuerName] at hsubjectName
    exact Except.ok.inj hsubjectName

end Authority

/-- The profile of the small authority for the certificate of a root. -/
def Sample.rootProfile : ResolvedProfile :=
  { profile with profile := { profile.profile with kind := .rootCa } }

/-- A request for a certificate with the configured name of the small authority. -/
def Sample.rootRequest : Request :=
  { request with subjectDn := authority.subjectDn }

namespace Authority

/-- The certificate of a root is issued for the configured name of the small authority. -/
theorem sample_root_names :
    ∃ cert, Sample.authority.issue Sample.rootRequest Sample.rootProfile Sample.token.signingKey Sample.now
        [1, 2, 3] = .ok cert ∧
      Certificate.issuerOctets? cert.der = Certificate.subjectOctets? cert.der := by
  have hissued : (Sample.authority.issue Sample.rootRequest Sample.rootProfile Sample.token.signingKey Sample.now
      [1, 2, 3]).isOk = true := by
    decide +kernel
  obtain ⟨cert, h⟩ := exists_of_isOk hissued
  obtain ⟨configured, requested, issuer, subject, hconfigured, hrequested, -, -, hissuer, hsubject, hsame⟩ :=
    root_names_iff rfl h
  have hparsed : configured = requested := Except.ok.inj (hconfigured.symm.trans hrequested)
  refine ⟨cert, h, ?_⟩
  rw [hissuer, hsubject, hsame.2 hparsed]

/-- The certificate of a root is issued for another name than the configured one of the small authority. -/
theorem exists_root_names_ne :
    Sample.authority.certificate = none ∧ Sample.rootProfile.profile.kind = .rootCa ∧
      ∃ cert, Sample.authority.issue Sample.request Sample.rootProfile Sample.token.signingKey Sample.now
          [1, 2, 3] = .ok cert ∧
        Certificate.issuerOctets? cert.der ≠ Certificate.subjectOctets? cert.der := by
  refine ⟨rfl, rfl, ?_⟩
  have hissued : (Sample.authority.issue Sample.request Sample.rootProfile Sample.token.signingKey Sample.now
      [1, 2, 3]).isOk = true := by
    decide +kernel
  obtain ⟨cert, h⟩ := exists_of_isOk hissued
  obtain ⟨run⟩ := exists_issueRun h
  obtain ⟨parts, hp⟩ := exists_isPrepared run.tbs_eq
  have hnames : Sample.authority.issuerName.map Name.encode ≠
      (Sample.authority.subjectName Sample.request Sample.rootProfile).map Name.encode := by
    decide +kernel
  rw [parts.issuer_eq, parts.subject_eq] at hnames
  refine ⟨cert, h, ?_⟩
  rw [run.issuerOctets?_eq, run.subjectOctets?_eq, hp.issuer, hp.subject]
  intro hsame
  exact hnames (congrArg Except.ok (Option.some.inj hsame))

end Authority

end CertAuthority
