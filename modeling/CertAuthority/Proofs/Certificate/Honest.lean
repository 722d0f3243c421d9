import CertAuthority.Proofs.Certificate.Blame
import CertAuthority.Proofs.Certificate.Verify
import CertAuthority.Proofs.Lenient.Structure
import CertAuthority.Proofs.Rsa.Signature
import CertAuthority.Proofs.SoftToken

/-!
# What verification refuses of an honest token

A soft token signs with the key that it reports, so what it signs verifies, provided that the lenient reader
reads it. That reader reads every revocation list that an authority puts together and every certificate but
those for a key with unused bits that are not zero: such a request is not refused as such, but the token is
blamed for it (`Authority.integrity_of_accepted_key`).
-/

namespace CertAuthority

open Der

namespace Verify

variable {fields? : Octets → Option (Lenient.Algorithm × Octets)} {t : Tlv} {signature : Octets}

/-- A signed part whose fields cannot be read is reported as malformed. -/
lemma structureWith_of_fields?_eq_none (what : String) (signer : PublicKeyInfo) {a : AlgorithmIdentifier}
    (ht : t.tag = Tag.sequence) (hf : (Lenient.signedTlv t a signature).Fits)
    (hnone : fields? t.content = none) :
    structureWith what (Lenient.signed? fields?) (Lenient.signedTlv t a signature).encode signer =
      .error (failure what "failed to decode: malformed structure") := by
  have hread : Lenient.signed? fields? (Lenient.signedTlv t a signature).encode = none := by
    rw [Lenient.signed?_encode ht hf, hnone]
    rfl
  simp only [structureWith, hread]
  rfl

/-- What a private key signed passes verification with its public half, if the fields are read and name the
algorithm. -/
lemma structureWith_of_sign (what : String) {k : Rsa.PrivateKey} {rsa : Rsa.PublicKey}
    {algorithm : SignatureAlgorithm} {subject : Octets} (hk : Rsa.PublicKey.ofInfo k.publicKey.info = .ok rsa)
    (hs : k.sign algorithm t.encode = .ok signature) (ht : t.tag = Tag.sequence)
    (hf : (Lenient.signedTlv t algorithm.identifier signature).Fits)
    (hfields : fields? t.content = some (Lenient.ofIdentifier algorithm.identifier, subject)) :
    structureWith what (Lenient.signed? fields?)
      (Lenient.signedTlv t algorithm.identifier signature).encode k.publicKey.info = .ok () := by
  obtain rfl : rsa = k.publicKey := Rsa.PublicKey.eq_of_ofInfo_info hk
  have hread : Lenient.signed? fields? (Lenient.signedTlv t algorithm.identifier signature).encode =
      some (⟨⟨t.encode, Lenient.ofIdentifier algorithm.identifier, subject⟩,
        Lenient.ofIdentifier algorithm.identifier, signature⟩, []) := by
    rw [Lenient.signed?_encode ht hf, hfields]
    rfl
  exact structureWith_eq_ok hread rfl (algorithm?_oid _ _) hk (Rsa.PrivateKey.verify_of_sign hs)

end Verify

/-- The key of a token for a purpose, if there is one, has a public half that is read. -/
def SoftToken.KeyIsAccepted (t : SoftToken) (purpose : Purpose) : Prop :=
  ∀ k, t.keys purpose = some k → ∃ rsa, Rsa.PublicKey.ofInfo k.key.publicKey.info = .ok rsa

namespace Authority

variable {ca : Authority} {t : SoftToken}

/-- The detail of the failure when the lenient reader does not read a certificate. -/
def unreadable : String := "certificate: failed to decode: malformed structure"

/-- The signed part of a certificate is read exactly if the unused bits of the requested key are zero. -/
lemma exists_certificateFields?_of_prepareCertificate {request : Request} {p : ResolvedProfile}
    {signerKey : PublicKeyInfo} {algorithm : SignatureAlgorithm} {window : Validity} {drawn : Octets}
    {tbs : TbsCertificate}
    (h : ca.prepareCertificate request p signerKey algorithm window drawn = .ok tbs)
    (hf : tbs.tlv.Fits) :
    ∃ subject, Lenient.certificateFields? tbs.tlv.content =
      if request.publicKey.key.HasZeroPadding then
        some (Lenient.ofIdentifier algorithm.identifier, subject) else none := by
  obtain ⟨parts, hp⟩ := exists_isPrepared h
  obtain ⟨subject, hfields⟩ := Lenient.exists_certificateFields?_content hp.version hp.issuerUniqueId
    hp.subjectUniqueId hf
  rw [hp.publicKey, hp.signature] at hfields
  exact ⟨subject, hfields⟩

/-- The signed part of a revocation list is read. -/
lemma listFields?_of_prepareRevocationList {entries : List RevocationEntry} {number : Nat}
    {signerKey : PublicKeyInfo} {algorithm : SignatureAlgorithm} {now next : Nat}
    {tbs : TbsRevocationList}
    (h : ca.prepareRevocationList entries number signerKey algorithm now next = .ok tbs)
    (hf : tbs.tlv.Fits) :
    Lenient.listFields? tbs.tlv.content = some (Lenient.ofIdentifier algorithm.identifier, []) := by
  simp only [prepareRevocationList, bind_eq_ok_iff, pure_eq_ok_iff] at h
  obtain ⟨revoked, -, issuer, -, this, -, nextUpdate, -, rfl⟩ := h
  exact Lenient.listFields?_content rfl rfl hf

/-- A request for a key with unused bits that are not zero is never granted, whatever signs. -/
lemma issue_ne_ok_of_padding {request : Request} {p : ResolvedProfile} {key : SigningKey} {now : Nat}
    {drawn : Octets} (h : ¬ request.publicKey.key.HasZeroPadding) (cert : IssuedCertificate) :
    ca.issue request p key now drawn ≠ .ok cert := by
  intro hissue
  obtain ⟨run⟩ := exists_issueRun hissue
  obtain ⟨subject, hfields⟩ := exists_certificateFields?_of_prepareCertificate run.tbs_eq run.tbs_fits
  rw [if_neg h] at hfields
  have hverified := run.verified
  rw [run.der_eq, Verify.certificate] at hverified
  have hfails := Verify.structureWith_of_fields?_eq_none "certificate" run.signerKey rfl run.fits
    hfields
  cases hverified.symm.trans hfails

/-- Issuing with an honest token fails with an integrity error only if a plugin does, or if the key in the
request has unused bits that are not zero. -/
lemma issue_failsOnly (ht : t.KeyIsAccepted .certSign) {request : Request} {p : ResolvedProfile} {now : Nat}
    {drawn : Octets} :
    FailsOnly (fun e => e.IsEarlier request ca p ∨
        (¬ request.publicKey.key.HasZeroPadding ∧ e = .integrity unreadable))
      (ca.issue request p t.signingKey now drawn) := by
  have hstep {α : Type} {x : Except Error α} (hx : FailsOnly Error.NotIntegrity x) :
      FailsOnly (fun e => e.IsEarlier request ca p ∨
        (¬ request.publicKey.key.HasZeroPadding ∧ e = .integrity unreadable)) x :=
    hx.isEarlier.mono fun _ => .inl
  refine .bind (hstep SoftToken.publicKey_failsOnly) fun signer hsigner => ?_
  refine .bind (hstep SoftToken.algorithm_failsOnly) fun algorithm halgorithm => ?_
  refine .bind (hstep Validity.resolve_failsOnly) fun window _ => ?_
  refine .bind (prepareCertificate_failsOnly.mono fun _ => .inl) fun tbs htbs => ?_
  refine .bind (hstep Der.Tlv.encoded_failsOnly) fun octets hoctets => ?_
  refine .bind (hstep SoftToken.sign_failsOnly) fun signature hsignature => ?_
  refine .bind (hstep Der.Tlv.encoded_failsOnly) fun der hder => ?_
  refine .bind ?_ fun _ _ => .ok _
  -- all steps before verification went through
  obtain ⟨k, hk, rfl, hnamed, hsign⟩ := SoftToken.exists_key_of_publicKey hsigner
  obtain ⟨rsa, hrsa⟩ := ht k hk
  obtain rfl : k.algorithm = algorithm := Except.ok.inj (hnamed.symm.trans halgorithm)
  obtain ⟨hfits, rfl⟩ := encoded_eq_ok_iff.1 hoctets
  obtain ⟨hfitsAll, rfl⟩ := encoded_eq_ok_iff.1 hder
  rw [hsign, SoftToken.operation, mapError_eq_ok_iff] at hsignature
  obtain ⟨subject, hfields⟩ := exists_certificateFields?_of_prepareCertificate htbs hfits
  by_cases hpadding : request.publicKey.key.HasZeroPadding
  · rw [if_pos hpadding] at hfields
    have hverified := Verify.structureWith_of_sign "certificate" hrsa hsignature rfl hfitsAll hfields
    intro e he
    cases he.symm.trans hverified
  · rw [if_neg hpadding] at hfields
    have hfails := Verify.structureWith_of_fields?_eq_none "certificate" k.key.publicKey.info rfl hfitsAll
      hfields
    intro e he
    refine .inr ⟨hpadding, ?_⟩
    cases he.symm.trans hfails
    rfl

/-- Issuing a revocation list with an honest token never fails with an integrity error. -/
lemma issueRevocationList_failsOnly (ht : t.KeyIsAccepted .crlSign) {entries : List RevocationEntry}
    {number now : Nat} :
    FailsOnly Error.NotIntegrity (ca.issueRevocationList entries number t.signingKey now) := by
  refine .bind SoftToken.publicKey_failsOnly fun signer hsigner => ?_
  refine .bind SoftToken.algorithm_failsOnly fun algorithm halgorithm => ?_
  refine .bind (.ite (.ok _) (.error trivial)) fun next _ => ?_
  refine .bind prepareRevocationList_failsOnly fun tbs htbs => ?_
  refine .bind Der.Tlv.encoded_failsOnly fun octets hoctets => ?_
  refine .bind SoftToken.sign_failsOnly fun signature hsignature => ?_
  refine .bind Der.Tlv.encoded_failsOnly fun der hder => ?_
  refine .bind ?_ fun _ _ => .ok _
  obtain ⟨k, hk, rfl, hnamed, hsign⟩ := SoftToken.exists_key_of_publicKey hsigner
  obtain ⟨rsa, hrsa⟩ := ht k hk
  obtain rfl : k.algorithm = algorithm := Except.ok.inj (hnamed.symm.trans halgorithm)
  obtain ⟨hfits, rfl⟩ := encoded_eq_ok_iff.1 hoctets
  obtain ⟨hfitsAll, rfl⟩ := encoded_eq_ok_iff.1 hder
  rw [hsign, SoftToken.operation, mapError_eq_ok_iff] at hsignature
  have hverified := Verify.structureWith_of_sign "CRL" hrsa hsignature rfl hfitsAll
    (listFields?_of_prepareRevocationList htbs hfits)
  intro e he
  cases he.symm.trans hverified

/-- With a token whose key for a purpose has a public half that is read, integrity errors have one cause that
is not a plugin's. Issuing a certificate ends in one only if a plugin does, or if the key in the request has
unused bits that are not zero: the strict reader passes such a key, the lenient one refuses the certificate
for it, and the error says no more than that. Such a request is never granted. Issuing a revocation list never
ends in an integrity error. -/
theorem integrity_of_accepted_key (ca : Authority) (t : SoftToken) :
    (t.KeyIsAccepted .certSign → ∀ request p now drawn,
      (∀ details, ca.issue request p t.signingKey now drawn = .error (.integrity details) →
        (∃ plugin ∈ p.plugins, plugin.value request ca p.profile = .error (.integrity details)) ∨
        (¬ request.publicKey.key.HasZeroPadding ∧
          details = "certificate: failed to decode: malformed structure")) ∧
      (¬ request.publicKey.key.HasZeroPadding →
        ∀ cert, ca.issue request p t.signingKey now drawn ≠ .ok cert)) ∧
    (t.KeyIsAccepted .crlSign → ∀ entries number now details,
      ca.issueRevocationList entries number t.signingKey now ≠ .error (.integrity details)) := by
  refine ⟨?_, ?_⟩
  · intro ht request p now drawn
    refine ⟨fun details h => ?_, issue_ne_ok_of_padding⟩
    obtain (hearlier | hplugin) | ⟨hpadding, hdetails⟩ := issue_failsOnly ht _ h
    · exact hearlier.elim
    · exact .inl hplugin
    · exact .inr ⟨hpadding, Error.integrity.inj hdetails⟩
  · intro ht entries number now details h
    exact issueRevocationList_failsOnly ht _ h

/-- The keys of the small authority are read. -/
lemma keyIsAccepted_sample (purpose : Purpose) : Sample.token.KeyIsAccepted purpose := by
  intro k hk
  have hkey : ⟨Sample.privateKey, .sha256WithRsa⟩ = k := Option.some.inj hk
  subst hkey
  exact exists_of_isOk (by decide +kernel)

/-- Nothing that is asked of the small authority with its usual request ends in an integrity error. -/
theorem sample_integrity :
    (Sample.token.KeyIsAccepted .certSign ∧ Sample.token.KeyIsAccepted .crlSign) ∧
    (∀ now drawn details, Sample.authority.issue Sample.request Sample.profile Sample.token.signingKey now
      drawn ≠ .error (.integrity details)) ∧
    ∀ entries number now details, Sample.authority.issueRevocationList entries number
      Sample.token.signingKey now ≠ .error (.integrity details) := by
  obtain ⟨hcertificate, hlist⟩ := integrity_of_accepted_key Sample.authority Sample.token
  refine ⟨⟨keyIsAccepted_sample _, keyIsAccepted_sample _⟩, fun now drawn details h => ?_,
    hlist (keyIsAccepted_sample _)⟩
  obtain ⟨plugin, hplugin, -⟩ | ⟨hpadding, -⟩ :=
    (hcertificate (keyIsAccepted_sample _) Sample.request Sample.profile now drawn).1 details h
  · cases hplugin
  · exact hpadding (by decide)

/-- A request for a key whose seven unused bits are set ends in an integrity error, though no plugin is there
and the strict reader reads the key. -/
theorem exists_integrity_of_accepted_key : ∃ (info : PublicKeyInfo) (details : String),
    Sample.token.active = true ∧ Sample.token.KeyIsAccepted .certSign ∧ Sample.profile.plugins = [] ∧
    PublicKeyInfo.decode? info.encode = some info ∧
    Sample.authority.issue { Sample.request with publicKey := info } Sample.profile
      Sample.token.signingKey Sample.now [1] = .error (.integrity details) :=
  ⟨⟨.withNull Oid.rsaEncryption, { unused := 7, octets := [0xFF] }⟩, unreadable, rfl,
    keyIsAccepted_sample _, rfl, by decide +kernel, by decide +kernel⟩

end Authority

end CertAuthority
