import CertAuthority.Certificate.Attach
import CertAuthority.Proofs.Lenient.Certificate

/-!
# The issuer is the subject of the authority's certificate

The subject of an attached certificate is read into a name, and names are written into what the
authority signs. Both readers of the certificate find the subject in the same place, and a subject that
would be written in another way is refused, so the octets stay the same
(`issuer_octets_eq_subject_octets`).
-/

namespace CertAuthority

open Der

namespace IssuerCertificate

/-- A certificate passes inspection exactly if both readers accept it, its subject is written as the
lenient one found it, and its subject key identifier can be read if there is one. -/
lemma inspect_eq_ok_iff {der : Octets} {ic : IssuerCertificate} :
    inspect der = .ok ic ↔
      ∃ signed c u subject id, Lenient.certificate? der = some (signed, []) ∧
        Certificate.decode? der = some c ∧ Tlv.decode? signed.part.subject = some u ∧
        Name.ofTlv? u = some subject ∧ subject.encode = signed.part.subject ∧
        subjectKeyId? (c.tbs.extensions.getD []) = .ok id ∧
        ic = ⟨der, subject, c.tbs.notAfter.seconds, id, c.tbs.publicKey⟩ := by
  constructor
  · intro h
    unfold inspect at h
    cases hl : Lenient.certificate? der with
    | none =>
      rw [hl] at h
      cases h
    | some r =>
      obtain ⟨signed, rest⟩ := r
      simp only [hl] at h
      split at h
      · cases h
      · rename_i hrest
        obtain rfl : rest = [] := by simpa using hrest
        -- the strict reader, the reader of elements and the reader of names come one after the other
        cases hd : Certificate.decode? der with
        | none =>
          rw [hd] at h
          cases h
        | some c =>
          cases hu : Tlv.decode? signed.part.subject with
          | none =>
            rw [hd, hu] at h
            cases h
          | some u =>
            cases hn : Name.ofTlv? u with
            | none =>
              simp only [hd, hu, Option.bind_some, hn] at h
              cases h
            | some subject =>
              simp only [hd, hu, Option.bind_some, hn] at h
              split at h
              · cases h
              · rename_i hs
                simp only [bind_eq_ok_iff, pure_eq_ok_iff] at h
                obtain ⟨id, hid, rfl⟩ := h
                exact ⟨signed, c, u, subject, id, rfl, rfl, hu, hn, not_not.1 hs, hid, rfl⟩
  · rintro ⟨signed, c, u, subject, id, hl, hd, hu, hn, hs, hid, rfl⟩
    simp only [inspect, hl, hd, hu, Option.bind_some, hn]
    rw [if_neg (by simp), if_neg (not_not.2 hs), hid]
    rfl

/-- The subject of a certificate that passes inspection is written as it stands in the certificate. -/
lemma subjectOctets?_of_inspect {der : Octets} {ic : IssuerCertificate} (h : inspect der = .ok ic) :
    Certificate.subjectOctets? der = some ic.subject.encode := by
  obtain ⟨signed, c, u, subject, id, hl, hd, hu, -, hs, -, rfl⟩ := inspect_eq_ok_iff.1 h
  obtain ⟨e, he⟩ := exists_makeUp hd
  rw [he.subjectOctets?_eq, hs, Lenient.subject_eq_of_certificate? he hl hu]

end IssuerCertificate

namespace Authority

/-- An authority that attached a certificate has that certificate. -/
lemma certificate_of_attach {ca attached : Authority} {der : Octets}
    (h : ca.attach der = .ok attached) :
    ∃ ic, IssuerCertificate.inspect der = .ok ic ∧ attached.certificate = some ic := by
  simp only [attach, bind_eq_ok_iff, pure_eq_ok_iff] at h
  obtain ⟨ic, hi, rfl⟩ := h
  exact ⟨ic, hi, rfl⟩

/-- An authority that attached a certificate in PEM form attached the certificate in it. -/
lemma attach_of_attachPem {ca attached : Authority} {text : Octets}
    (h : ca.attachPem text = .ok attached) :
    ∃ der, Pem.decodeLabeled Pem.certificate text = .ok der ∧ ca.attach der = .ok attached := by
  simpa only [attachPem, bind_eq_ok_iff, mapError_eq_ok_iff] using h

/-- An authority with a certificate issues in the name of its subject, whatever else is configured. -/
lemma issuer_of_certificate {ca : Authority} {ic : IssuerCertificate} {n : Name}
    (hc : ca.certificate = some ic) (h : ca.issuerName = .ok n) : n = ic.subject := by
  unfold issuerName at h
  rw [hc] at h
  cases h
  rfl

/-- The octets of the issuer in everything that an authority with a certificate signs are the octets of
the subject in that certificate. The configured name and its encoding do not matter, neither when the
certificate is attached nor later; nor do the profile, the request and the key. -/
theorem issuer_octets_eq_subject_octets {ca attached : Authority} {der : Octets}
    (h : ca.attach der = .ok attached ∨
      ∃ text, Pem.decodeLabeled Pem.certificate text = .ok der ∧ ca.attachPem text = .ok attached) :
    ∃ octets, Certificate.subjectOctets? der = some octets ∧ octets <:+: der ∧
      ∀ later : Authority, later.certificate = attached.certificate →
        (∀ request p key now drawn cert, later.issue request p key now drawn = .ok cert →
          Certificate.issuerOctets? cert.der = some octets ∧ octets <:+: cert.der) ∧
        ∀ entries number key now list, later.issueRevocationList entries number key now = .ok list →
          RevocationList.issuerOctets? list.der = some octets ∧ octets <:+: list.der := by
  have ha : ca.attach der = .ok attached := by
    cases h with
    | inl ha => exact ha
    -- the octets in the text are those that are attached
    | inr hp =>
      obtain ⟨text, hd, hp⟩ := hp
      obtain ⟨der', hd', ha⟩ := attach_of_attachPem hp
      rw [hd] at hd'
      cases hd'
      exact ha
  obtain ⟨ic, hi, hc⟩ := certificate_of_attach ha
  have hs := IssuerCertificate.subjectOctets?_of_inspect hi
  refine ⟨_, hs, Certificate.infix_of_subjectOctets? hs, ?_⟩
  intro later hlater
  have hic : later.certificate = some ic := hlater.trans hc
  refine ⟨?_, ?_⟩
  · intro request p key now drawn cert hcert
    obtain ⟨run⟩ := exists_issueRun hcert
    obtain ⟨parts, hp⟩ := exists_isPrepared run.tbs_eq
    have he : Certificate.issuerOctets? cert.der = some ic.subject.encode := by
      rw [run.issuerOctets?_eq, hp.issuer, issuer_of_certificate hic parts.issuer_eq]
    exact ⟨he, Certificate.infix_of_issuerOctets? he⟩
  · intro entries number key now list hlist
    obtain ⟨run⟩ := exists_listRun hlist
    obtain ⟨hissuer, _, _⟩ := of_prepareRevocationList run.tbs_eq
    have he : RevocationList.issuerOctets? list.der = some ic.subject.encode := by
      rw [run.issuerOctets?_eq, issuer_of_certificate hic hissuer]
    exact ⟨he, RevocationList.infix_of_issuerOctets? he⟩

/-- The small authority attaches the certificate that it has issued, and then issues again. -/
lemma isOk_attach :
    (do
      let cert ← Sample.authority.issue Sample.request Sample.profile Sample.token.signingKey Sample.now
        [1, 2, 3]
      let attached ← Sample.authority.attach cert.der
      let later ← attached.issue Sample.request Sample.profile Sample.token.signingKey Sample.now [4]
      let list ← attached.issueRevocationList Sample.entries 7 Sample.token.signingKey Sample.now
      return (later, list)).isOk = true := by
  decide +kernel

/-- What the small authority issues after it has attached a certificate is issued in the name of the
subject of that certificate. -/
theorem sample_issuer_is_subject :
    ∃ der attached octets, Sample.authority.attach der = .ok attached ∧
      Certificate.subjectOctets? der = some octets ∧
      (∃ cert, attached.issue Sample.request Sample.profile Sample.token.signingKey Sample.now [4] =
        .ok cert ∧ Certificate.issuerOctets? cert.der = some octets) ∧
      ∃ list, attached.issueRevocationList Sample.entries 7 Sample.token.signingKey Sample.now =
        .ok list ∧ RevocationList.issuerOctets? list.der = some octets := by
  obtain ⟨_, h⟩ := exists_of_isOk isOk_attach
  simp only [bind_eq_ok_iff] at h
  obtain ⟨cert, _, attached, ha, later, hc, list, hl, _⟩ := h
  obtain ⟨octets, hs, _, hlater⟩ := issuer_octets_eq_subject_octets (Or.inl ha)
  obtain ⟨hcert, hlist⟩ := hlater attached rfl
  exact ⟨cert.der, attached, octets, ha, hs, ⟨later, hc, (hcert _ _ _ _ _ _ hc).1⟩,
    ⟨list, hl, (hlist _ _ _ _ _ hl).1⟩⟩

end Authority

end CertAuthority
