import CertAuthority.Proofs.Certificate.Attach
import CertAuthority.Proofs.Certificate.Issue
import CertAuthority.Proofs.Certificate.Verify
import CertAuthority.Proofs.Extension.Resolve
import CertAuthority.Proofs.Lenient.Name

/-!
# Attaching what was issued

The certificate that an authority has issued can be attached to an authority again, and what is recovered
is what was issued. The one thing in the way is the strict reader, which refuses identifiers of fewer
than three octets, while nothing keeps these from being issued (`attach_of_issue`).
-/

namespace CertAuthority

open Der

/-- No part of an encoded name is without attributes. -/
lemma DistinguishedName.hasAttributes_of_toName {encoding : NameEncoding} {dn : DistinguishedName}
    {n : Name} (h : dn.toName encoding = .ok n) : n.HasAttributes := by
  obtain ⟨attributes, -, hn⟩ := bind_eq_ok_iff.1 h
  cases hn
  intro r hr
  obtain ⟨a, -, rfl⟩ := List.mem_map.1 hr
  exact List.cons_ne_nil a []

namespace ExtensionContext

variable {c : ExtensionContext} {es : List Extension}

/-- Of the extensions of a certificate only those of plugins can have short identifiers. -/
lemma forall_oid_iff_of_resolve (h : c.resolve = .ok es) {n : Nat} (hn : n ≤ 3) :
    (∀ e ∈ es, n ≤ e.oid.octets.length) ↔
      ∀ plugin ∈ c.resolved.plugins, n ≤ plugin.oid.octets.length := by
  obtain ⟨given, hs, rfl, -⟩ := resolve_eq_ok_iff.1 h
  constructor
  · intro hes plugin hplugin
    have hsource : c.pluginExtension plugin ∈ c.sources :=
      List.mem_append_right _ (List.mem_map_of_mem hplugin)
    obtain ⟨g, -, hg⟩ := List.mem_map.1 (hs ▸ hsource)
    -- a plugin always gives an extension
    obtain ⟨value, -, he⟩ := bind_eq_ok_iff.1 hg.symm
    cases he
    rw [← hg] at hsource
    exact hes _ ((mem_of_resolve h).2 hsource)
  · intro hplugins e he
    have hgives := c.forall₂_gives
    rw [hs] at hgives
    have hid : e.oid ∈ c.identifiers := (sublist_of_gives hgives).subset (List.mem_map_of_mem he)
    cases List.mem_append.1 hid with
    | inl hbuiltIn =>
      have hall : ∀ id ∈ builtInIdentifiers, 3 ≤ id.octets.length := by decide +kernel
      exact Nat.le_trans hn (hall _ hbuiltIn)
    | inr hplugin =>
      obtain ⟨plugin, hplugin, hoid⟩ := List.mem_map.1 hplugin
      rw [← hoid]
      exact hplugins plugin hplugin

/-- The subject key identifier that is found among extensions is the name of the subject's key if the
profile has one, unless a plugin interferes. -/
lemma subjectKeyId?_of_resolve (h : c.resolve = .ok es)
    (hp : ∀ plugin ∈ c.resolved.plugins, plugin.oid ≠ Oid.subjectKeyIdentifier) :
    IssuerCertificate.subjectKeyId? es = .ok (
      if c.profile.useSubjectKeyIdentifier then some c.request.publicKey.keyIdentifier else none) := by
  have hz : (Oid.subjectKeyIdentifier, c.subjectKeyIdentifier) ∈
      builtInIdentifiers.zip c.builtInSources := by
    simp [builtInIdentifiers, builtInSources]
  have hmem : c.subjectKeyIdentifier ∈ c.sources := by simp [sources]
  unfold IssuerCertificate.subjectKeyId?
  cases huse : c.profile.useSubjectKeyIdentifier with
  | true =>
    have hsource : c.subjectKeyIdentifier = .ok (some (.ofElement Oid.subjectKeyIdentifier
        c.profile.subjectKeyIdentifierCritical
        (KeyIdentifier.subjectTlv c.request.publicKey.keyIdentifier))) := by
      rw [subjectKeyIdentifier, huse]
      rfl
    rw [hsource] at hmem
    have hfound : es.find? (fun e => e.oid = Oid.subjectKeyIdentifier) = some _ :=
      (find?_eq_some_iff_of_resolve h).2 ⟨hmem, rfl⟩
    have hlength : (KeyIdentifier.subjectTlv c.request.publicKey.keyIdentifier).Fits := by
      rw [KeyIdentifier.subjectTlv, Tlv.Fits, Tlv.ofOctets, PublicKeyInfo.length_keyIdentifier]
      decide
    have hvalue := Tlv.decode?_encode ⟨Tlv.known_ofOctets _, hlength⟩
    simp only [hfound, Extension.ofElement, hvalue, Option.bind_some, KeyIdentifier.subjectOfTlv?,
      KeyIdentifier.subjectTlv, Tlv.toOctets?_ofOctets, if_true]
  | false =>
    have hsource : c.subjectKeyIdentifier = .ok none := by
      rw [subjectKeyIdentifier, huse]
      rfl
    -- The only source with this identifier gives nothing, so none is found.
    cases hf : es.find? fun e => e.oid = Oid.subjectKeyIdentifier with
    | none => rfl
    | some e =>
      obtain ⟨he, hoid⟩ := (find?_eq_some_iff_of_resolve h).1 hf
      rw [← hoid] at hz hp
      rw [eq_of_mem_sources he hz hp] at hsource
      cases hsource

end ExtensionContext

/-- A certificate that only the lenient reader accepts does not pass inspection. -/
lemma IssuerCertificate.inspect_of_decode?_eq_none {der : Octets} {s : Lenient.Signed}
    (hl : Lenient.certificate? der = some (s, [])) (hd : Certificate.decode? der = none) :
    inspect der = .error (.invalidCaCertificate "failed to decode: malformed certificate") := by
  simp only [inspect, hl, hd]
  rfl

namespace Authority

variable {ca : Authority} {request : Request} {p : ResolvedProfile} {key : SigningKey} {now : Nat}
  {drawn : Octets} {cert : IssuedCertificate}

/-- No part of the name of a subject is without attributes. -/
lemma hasAttributes_of_subjectName {n : Name} (h : ca.subjectName request p = .ok n) :
    n.HasAttributes := by
  obtain ⟨dn, -, hn⟩ := bind_eq_ok_iff.1 (mapError_eq_ok_iff.1 h)
  exact DistinguishedName.hasAttributes_of_toName hn

/-- The strict reader without a lower bound reads what was issued. -/
lemma IssueRun.decode?_zero (run : IssueRun ca request p key now drawn cert) :
    Certificate.decode? cert.der 0 = some run.certificate := by
  rw [run.der_eq]
  exact (Certificate.decode?_encode_iff run.readable_certificate).2 ⟨rfl, fun _ _ => Nat.zero_le _⟩

/-- The subject of what was issued can be read. -/
lemma IssueRun.readable_subject (run : IssueRun ca request p key now drawn cert) :
    run.tbs.subject.tlv.Readable := by
  have hf := run.tbs_fits
  rw [TbsCertificate.tlv_eq] at hf
  exact ⟨Name.known_tlv _, hf.of_mem (by simp [TbsCertificate.fields, TbsCertificate.fixedFields])⟩

/-- The extensions of a prepared certificate are the resolved ones, also where there are none. -/
lemma IsPrepared.getD_extensions {signerKey : PublicKeyInfo} {algorithm : SignatureAlgorithm}
    {window : Validity} {parts : PreparedParts ca request p signerKey} {tbs : TbsCertificate}
    (h : IsPrepared ca request algorithm window drawn parts tbs) :
    tbs.extensions.getD [] = parts.extensions := by
  rw [h.extensions]
  cases parts.extensions <;> rfl

/-- The subject that the lenient reader finds in a certificate that was issued is the whole of it. -/
lemma IssueRun.subject_eq_of_certificate? (run : IssueRun ca request p key now drawn cert)
    {s : Lenient.Signed} {left : Octets} (hl : Lenient.certificate? cert.der = some (s, left)) :
    s.part.subject = run.tbs.subject.encode := by
  obtain ⟨parts, hparts⟩ := exists_isPrepared run.tbs_eq
  obtain ⟨e, he⟩ := exists_makeUp run.decode?_zero
  have hsubject : e.subject.encode = run.tbs.subject.encode :=
    Option.some.inj (he.subjectOctets?_eq.symm.trans run.subjectOctets?_eq)
  have hattributes : run.tbs.subject.HasAttributes := by
    rw [hparts.subject]
    exact hasAttributes_of_subjectName parts.subject_eq
  obtain ⟨rest, left, hname⟩ := Lenient.exists_name?_of_certificate? he hl
  rw [hsubject, Name.encode, Lenient.name?_encode run.readable_subject hattributes] at hname
  exact (congrArg Prod.fst (Option.some.inj hname)).symm

/-- The identifiers in a certificate that the engine does not choose. -/
def chosenIdentifiers (issuer subject : Name) (request : Request) (p : ResolvedProfile) : List Oid :=
  issuer.identifiers ++ subject.identifiers ++
    request.publicKey.algorithm.algorithm :: p.plugins.map (·.oid)

/-- The strict reader reads a certificate that was issued exactly if the identifiers that the engine does
not choose are long enough. -/
lemma IssueRun.decode?_eq_some_iff (run : IssueRun ca request p key now drawn cert) {d : Certificate} :
    Certificate.decode? cert.der = some d ↔ d = run.certificate ∧
      ∀ o ∈ chosenIdentifiers run.tbs.issuer run.tbs.subject request p, 3 ≤ o.octets.length := by
  obtain ⟨parts, hparts⟩ := exists_isPrepared run.tbs_eq
  have hplugins : (∀ e ∈ parts.extensions, 3 ≤ e.oid.octets.length) ↔
      ∀ plugin ∈ p.plugins, 3 ≤ plugin.oid.octets.length :=
    ExtensionContext.forall_oid_iff_of_resolve parts.extensions_eq (Nat.le_refl 3)
  rw [run.der_eq]
  refine (Certificate.decode?_encode_iff run.readable_certificate).trans (and_congr_right fun _ => ?_)
  simp only [Certificate.identifiers, certificate, chosenIdentifiers, List.forall_mem_append,
    TbsCertificate.forall_identifiers, List.forall_mem_cons, List.forall_mem_map,
    hparts.getD_extensions, shortestOid, hplugins, hparts.signature, hparts.publicKey, SignatureAlgorithm.three_le_length]
  constructor
  · rintro ⟨⟨-, issuer, subject, publicKey, plugins⟩, -⟩
    exact ⟨⟨issuer, subject⟩, publicKey, plugins⟩
  · rintro ⟨⟨issuer, subject⟩, publicKey, plugins⟩
    exact ⟨⟨trivial, issuer, subject, publicKey, plugins⟩, trivial, List.forall_mem_nil _⟩

/-- Attaching a certificate that was issued recovers what was issued: its octets, its subject, the end of
its validity, its key, and the name of its key if the profile has one. It fails exactly if an identifier
that the engine does not choose has fewer than three octets; such a certificate is issued nevertheless. -/
theorem attach_of_issue (h : ca.issue request p key now drawn = .ok cert)
    (hp : ∀ plugin ∈ p.plugins, plugin.oid ≠ Oid.subjectKeyIdentifier) :
    ∃ issuer subject, ca.issuerName = .ok issuer ∧ ca.subjectName request p = .ok subject ∧
      ∀ other : Authority, other.attach cert.der =
        if ∀ o ∈ chosenIdentifiers issuer subject request p, 3 ≤ o.octets.length then
          .ok { other with certificate := some {
            der := cert.der
            subject
            notAfter := cert.notAfter
            subjectKeyId :=
              if p.profile.useSubjectKeyIdentifier then some request.publicKey.keyIdentifier else none
            publicKey := request.publicKey } }
        else .error (.invalidCaCertificate "failed to decode: malformed certificate") := by
  obtain ⟨run⟩ := exists_issueRun h
  obtain ⟨parts, hparts⟩ := exists_isPrepared run.tbs_eq
  obtain ⟨s, -, -, hl, -⟩ := Verify.of_structureWith run.verified
  refine ⟨run.tbs.issuer, run.tbs.subject, hparts.issuer ▸ parts.issuer_eq,
    hparts.subject ▸ parts.subject_eq, ?_⟩
  intro other
  split
  · rename_i hlong
    -- The engine's reader takes the certificate, and what it inspects are the parts of the run.
    have hd := run.decode?_eq_some_iff.2 ⟨rfl, hlong⟩
    have hsubject := run.subject_eq_of_certificate? hl
    have hu : Tlv.decode? s.part.subject = some run.tbs.subject.tlv := by
      rw [hsubject]
      exact Tlv.decode?_encode run.readable_subject
    have hn : Name.ofTlv? run.tbs.subject.tlv = some run.tbs.subject := by
      refine (Name.ofTlv?_tlv_iff run.readable_subject.fits).2 ⟨rfl, fun o ho => hlong o ?_⟩
      exact List.mem_append_left _ (List.mem_append_right _ ho)
    have hid := ExtensionContext.subjectKeyId?_of_resolve parts.extensions_eq hp
    rw [← hparts.getD_extensions] at hid
    have hic := IssuerCertificate.inspect_eq_ok_iff.2
      ⟨s, run.certificate, run.tbs.subject.tlv, run.tbs.subject, _, hl, hd, hu, hn, hsubject.symm, hid,
        rfl⟩
    rw [attach, hic, IssueRun.certificate, hparts.notAfter, hparts.publicKey]
    rfl
  · rename_i hshort
    have hd : Certificate.decode? cert.der = none := by
      rw [Option.eq_none_iff_forall_ne_some]
      intro d hd
      exact hshort (run.decode?_eq_some_iff.1 hd).2
    rw [attach, IssuerCertificate.inspect_of_decode?_eq_none hl hd]
    rfl

/-- The small authority attaches the certificate that it has issued. -/
theorem sample_attaches :
    ∃ cert subject, Sample.authority.issue Sample.request Sample.profile Sample.token.signingKey
        Sample.now [1, 2, 3] = .ok cert ∧
      Sample.authority.attach cert.der = .ok { Sample.authority with
        certificate := some ⟨cert.der, subject, cert.notAfter, none, Sample.request.publicKey⟩ } := by
  obtain ⟨cert, h, -⟩ := Sample.exists_issue
  obtain ⟨issuer, subject, hissuer, hsubject, hattach⟩ := attach_of_issue h nofun
  have hi : Sample.authority.issuerName.map Name.identifiers = .ok [Oid.commonName] := by
    decide +kernel
  have hs : (Sample.authority.subjectName Sample.request Sample.profile).map Name.identifiers =
      .ok [Oid.commonName] := by
    decide +kernel
  rw [hissuer] at hi
  rw [hsubject] at hs
  have hlong : ∀ o ∈ chosenIdentifiers issuer subject Sample.request Sample.profile,
      3 ≤ o.octets.length := by
    rw [chosenIdentifiers, Except.ok.inj hi, Except.ok.inj hs]
    decide +kernel
  refine ⟨cert, subject, h, ?_⟩
  rw [hattach, if_pos hlong]
  rfl

end Authority

/-- The small authority under a name with an attribute type of two octets. -/
def Sample.shortNamed : Authority :=
  { authority with subjectDn := "1.2.3=b" }

/-- A certificate is issued and cannot be attached. -/
theorem Authority.exists_issue_and_attach_fails :
    ∃ cert, Sample.shortNamed.issue Sample.request Sample.profile Sample.token.signingKey Sample.now
        [1, 2, 3] = .ok cert ∧
      Sample.shortNamed.attach cert.der =
        .error (.invalidCaCertificate "failed to decode: malformed certificate") := by
  have hfails : (Sample.shortNamed.issue Sample.request Sample.profile Sample.token.signingKey
      Sample.now [1, 2, 3]).map (fun cert : IssuedCertificate => Sample.shortNamed.attach cert.der) =
        .ok (.error (.invalidCaCertificate "failed to decode: malformed certificate")) := by
    decide +kernel
  cases h : Sample.shortNamed.issue Sample.request Sample.profile Sample.token.signingKey Sample.now
      [1, 2, 3] with
  | error e =>
    rw [h] at hfails
    cases hfails
  | ok cert =>
    rw [h] at hfails
    exact ⟨cert, rfl, Except.ok.inj hfails⟩

end CertAuthority
