import CertAuthority.Proofs.Certificate.Attach
import CertAuthority.Proofs.Certificate.Verify

/-!
# Whose key an issued certificate verifies with

Before a certificate is given out it is verified with the key that the token reports. The key in the
certificate that the authority has attached is not looked at, so the two need not be the same
(`verify_issued_iff`).
-/

namespace CertAuthority

open Der

/-- The authority with another key in its certificate, if it has one. -/
def Authority.withAttachedKey (ca : Authority) (k : PublicKeyInfo) : Authority :=
  { ca with certificate := ca.certificate.map fun ic => { ic with publicKey := k } }

/-- The plugins make the same of an authority whatever key is in its certificate. -/
def ResolvedProfile.IgnoresAttachedKey (p : ResolvedProfile) (request : Request) (ca : Authority)
    (k : PublicKeyInfo) : Prop :=
  ∀ plugin ∈ p.plugins,
    plugin.value request (ca.withAttachedKey k) p.profile = plugin.value request ca p.profile

/-- The extensions do not depend on the attached key if the plugins do not. -/
lemma ExtensionContext.resolve_withAttachedKey {c : ExtensionContext} {k : PublicKeyInfo}
    (hp : c.resolved.IgnoresAttachedKey c.request c.ca k) :
    resolve { c with ca := c.ca.withAttachedKey k } = c.resolve := by
  have hkey : authorityKeyId { c with ca := c.ca.withAttachedKey k } = c.authorityKeyId := by
    simp only [authorityKeyId, Authority.withAttachedKey, Option.bind_map]
    rfl
  have hkeyIdentifier : authorityKeyIdentifier { c with ca := c.ca.withAttachedKey k } =
      c.authorityKeyIdentifier := by
    rw [authorityKeyIdentifier, hkey]
    rfl
  have hplugins : c.resolved.plugins.map
      (pluginExtension { c with ca := c.ca.withAttachedKey k }) =
        c.resolved.plugins.map c.pluginExtension := by
    apply List.map_congr_left
    intro plugin hplugin
    show (do return some ⟨plugin.oid, plugin.critical, ← plugin.value c.request (c.ca.withAttachedKey k)
      c.resolved.profile⟩ : Except Error (Option Extension)) = _
    rw [hp plugin hplugin]
    rfl
  -- all other sources look at settings of the authority only
  have hsources : sources { c with ca := c.ca.withAttachedKey k } = c.sources := by
    unfold sources
    rw [hkeyIdentifier, hplugins]
    rfl
  rw [resolve, hsources]
  rfl

namespace Authority

variable {ca : Authority} {request : Request} {p : ResolvedProfile} {key : SigningKey} {now : Nat}
  {drawn : Octets} {cert : IssuedCertificate}

/-- The key in the attached certificate has no part in what is issued, unless a plugin looks at it. -/
lemma issue_withAttachedKey {k : PublicKeyInfo} (hp : p.IgnoresAttachedKey request ca k) :
    (ca.withAttachedKey k).issue request p key now drawn = ca.issue request p key now drawn := by
  have hnotAfter : (ca.withAttachedKey k).certificate.map (·.notAfter) =
      ca.certificate.map (·.notAfter) := by
    rw [withAttachedKey, Option.map_map]
    rfl
  have hissuer : (ca.withAttachedKey k).issuerName = ca.issuerName := by
    unfold issuerName withAttachedKey
    cases ca.certificate <;> rfl
  have hprepare (signerKey : PublicKeyInfo) (algorithm : SignatureAlgorithm) (window : Validity) :
      (ca.withAttachedKey k).prepareCertificate request p signerKey algorithm window drawn =
        ca.prepareCertificate request p signerKey algorithm window drawn := by
    have hresolve (altNames : List AltName) :
        ExtensionContext.resolve ⟨request, altNames, p, ca.withAttachedKey k, signerKey⟩ =
          ExtensionContext.resolve ⟨request, altNames, p, ca, signerKey⟩ :=
      @ExtensionContext.resolve_withAttachedKey ⟨request, altNames, p, ca, signerKey⟩ k hp
    unfold prepareCertificate
    simp only [hissuer, hresolve]
    rfl
  unfold issue
  rw [hnotAfter]
  simp only [hprepare]

end Authority

/-- A structure that passed the check with the key that signed it passes it with another key exactly if the
signature verifies with that key. -/
lemma SignedBy.structureWith_eq_ok_iff {key : SigningKey} {purpose : Purpose} {what : String}
    {read? : Octets → Option (Lenient.Signed × Octets)} {der : Octets} {signer k : PublicKeyInfo}
    {algorithm : SignatureAlgorithm} {tbs signature : Octets}
    (h : SignedBy key purpose read? der signer algorithm tbs signature)
    (hverified : Verify.structureWith what read? der signer = .ok ()) :
    Verify.structureWith what read? der k = .ok () ↔
      ∃ rsa, Rsa.PublicKey.ofInfo k = .ok rsa ∧ rsa.verify algorithm tbs signature = true := by
  obtain ⟨s, hread, rfl, rfl, -, halgorithm⟩ := h.read_eq
  constructor
  · intro hk
    obtain ⟨s', named, rsa, hread', -, hnamed, hrsa, hv⟩ := Verify.of_structureWith hk
    obtain rfl : s = s' := congrArg Prod.fst (Option.some.inj (hread.symm.trans hread'))
    obtain rfl : algorithm = named := Option.some.inj (halgorithm.symm.trans hnamed)
    exact ⟨rsa, hrsa, hv⟩
  · rintro ⟨rsa, hrsa, hv⟩
    obtain ⟨s', -, -, hread', hsame, -⟩ := Verify.of_structureWith hverified
    obtain rfl : s = s' := congrArg Prod.fst (Option.some.inj (hread.symm.trans hread'))
    exact Verify.structureWith_eq_ok hread hsame halgorithm hrsa hv

namespace Authority

/-- A certificate that an authority issues verifies with the key that the token reports. It verifies with
the key in the attached certificate exactly if that key, too, accepts the signature, as it does if the two
are the same; but that key is not looked at, and the same certificate is issued whatever it is, unless a
plugin looks at it. -/
theorem verify_issued_iff {ca : Authority} {request : Request} {p : ResolvedProfile} {key : SigningKey}
    {now : Nat} {drawn : Octets} {cert : IssuedCertificate}
    (h : ca.issue request p key now drawn = .ok cert) :
    ∃ signer algorithm tbs signature,
      SignedBy key .certSign Lenient.certificate? cert.der signer algorithm tbs signature ∧
      Verify.certificate cert.der signer = .ok () ∧
      (∀ ic, ca.certificate = some ic →
        (Verify.certificate cert.der ic.publicKey = .ok () ↔ ∃ rsa,
          Rsa.PublicKey.ofInfo ic.publicKey = .ok rsa ∧ rsa.verify algorithm tbs signature = true) ∧
        (ic.publicKey = signer → Verify.certificate cert.der ic.publicKey = .ok ())) ∧
      ∀ k, p.IgnoresAttachedKey request ca k →
        (ca.withAttachedKey k).issue request p key now drawn = .ok cert := by
  obtain ⟨run⟩ := exists_issueRun h
  have hsigned : SignedBy key .certSign Lenient.certificate? cert.der run.signerKey run.algorithm
      run.tbs.tlv.encode run.signature :=
    .of_structureWith run.signerKey_eq run.algorithm_eq run.signature_eq run.tbs.known_tlv run.fits
      run.der_eq run.verified
  refine ⟨_, _, _, _, hsigned, run.verified, ?_, ?_⟩
  · intro ic _
    refine ⟨hsigned.structureWith_eq_ok_iff run.verified, fun hsame => ?_⟩
    rw [hsame]
    exact run.verified
  · intro k hp
    rw [issue_withAttachedKey hp, h]

/-- What the small authority issues after it has attached a certificate. -/
theorem sample_verify_issued :
    ∃ (attached : Authority) (ic : IssuerCertificate) (cert : IssuedCertificate),
      attached.certificate = some ic ∧
      attached.issue Sample.request Sample.profile Sample.token.signingKey Sample.now [4] = .ok cert ∧
      (∃ signer, Verify.certificate cert.der signer = .ok ()) ∧
      ∀ k, (attached.withAttachedKey k).issue Sample.request Sample.profile Sample.token.signingKey
        Sample.now [4] = .ok cert := by
  obtain ⟨_, h⟩ := exists_of_isOk isOk_attach
  simp only [bind_eq_ok_iff] at h
  obtain ⟨top, -, attached, hattached, cert, hcert, -⟩ := h
  obtain ⟨ic, -, hc⟩ := certificate_of_attach hattached
  obtain ⟨signer, _, _, _, -, hverified, -, hsame⟩ := verify_issued_iff hcert
  exact ⟨attached, ic, cert, hc, hcert, ⟨signer, hverified⟩, fun k => hsame k nofun⟩

end Authority

/-- An RSA key that the token of the small authority does not hold. -/
def Sample.foreignKey : Rsa.PublicKey where
  modulus := prime1 * prime2 + 2
  longEnough := by decide +kernel

/-- A certificate is issued under an attached certificate with another RSA key, and does not verify with
that key. -/
theorem Authority.exists_issue_not_verified_by_attached_key :
    ∃ der attached ic cert, Sample.authority.attach der = .ok attached ∧
      attached.certificate = some ic ∧ Rsa.PublicKey.ofInfo ic.publicKey = .ok Sample.foreignKey ∧
      attached.issue Sample.request Sample.profile Sample.token.signingKey Sample.now [2] = .ok cert ∧
      Verify.certificate cert.der ic.publicKey =
        .error (.integrity "certificate: signature does not verify: signature error") := by
  have hrun : (do
      let top ← Sample.authority.issue { Sample.request with publicKey := Sample.foreignKey.info }
        Sample.profile Sample.token.signingKey Sample.now [1]
      let attached ← Sample.authority.attach top.der
      let cert ← attached.issue Sample.request Sample.profile Sample.token.signingKey Sample.now [2]
      return (attached.certificate.map IssuerCertificate.publicKey,
        Verify.certificate cert.der Sample.foreignKey.info)) =
      .ok (some Sample.foreignKey.info,
        .error (.integrity "certificate: signature does not verify: signature error")) := by
    decide +kernel
  have hkey : Rsa.PublicKey.ofInfo Sample.foreignKey.info = .ok Sample.foreignKey := by
    decide +kernel
  simp only [bind_eq_ok_iff, pure_eq_ok_iff, Prod.mk.injEq] at hrun
  obtain ⟨top, -, attached, hattached, cert, hcert, hfound, hverify⟩ := hrun
  obtain ⟨ic, hc, hpublicKey⟩ := Option.map_eq_some_iff.1 hfound
  exact ⟨top.der, attached, ic, cert, hattached, hc, hpublicKey ▸ hkey, hcert, hpublicKey ▸ hverify⟩

end CertAuthority
