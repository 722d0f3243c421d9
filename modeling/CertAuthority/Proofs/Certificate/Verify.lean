import CertAuthority.Proofs.Lenient.Signed
import CertAuthority.Proofs.RevocationList.Run

/-!
# Nothing leaves the authority unverified

What a signing key answers is not trusted. Whatever it is, the octets that the lenient reader finds in
a certificate or revocation list that is given out are those that the key was given to sign, and the
signature that it finds is the answer of the key and verifies (`issued_is_signed`).
-/

namespace CertAuthority

open Der

namespace Verify

/-- The identifier of a supported algorithm names that algorithm, whatever its parameters are. -/
lemma algorithm?_oid (algorithm : SignatureAlgorithm) (parameters : Option Lenient.Element) :
    algorithm? ⟨algorithm.identifier.algorithm.octets, parameters⟩ = some algorithm := by
  cases algorithm <;> rfl

/-- The name of an algorithm decides by its identifier. -/
lemma algorithm?_of_oid {a : Lenient.Algorithm} {algorithm : SignatureAlgorithm}
    (h : a.oid = algorithm.identifier.algorithm.octets) : algorithm? a = some algorithm := by
  obtain ⟨oid, parameters⟩ := a
  subst h
  exact algorithm?_oid algorithm parameters

/-- A signature that passes the check is one by the key with a supported algorithm. -/
lemma of_signature {what : String} {s : Lenient.Signed} {signer : PublicKeyInfo}
    (h : signature what s signer = .ok ()) :
    ∃ algorithm rsa, algorithm? s.algorithm = some algorithm ∧ Rsa.PublicKey.ofInfo signer = .ok rsa ∧
      rsa.verify algorithm s.part.octets s.signature = true := by
  unfold signature at h
  cases ha : algorithm? s.algorithm with
  | none =>
    rw [ha] at h
    cases h
  | some algorithm =>
    simp only [ha, bind_eq_ok_iff, mapError_eq_ok_iff] at h
    obtain ⟨rsa, hk, hv⟩ := h
    refine ⟨algorithm, rsa, rfl, hk, ?_⟩
    split at hv
    · assumption
    · cases hv

/-- A structure that passes the check was read to its end, names one algorithm twice and is signed with
that algorithm by the key. -/
lemma of_structureWith {what : String} {read? : Octets → Option (Lenient.Signed × Octets)}
    {der : Octets} {signer : PublicKeyInfo} (h : structureWith what read? der signer = .ok ()) :
    ∃ s algorithm rsa, read? der = some (s, []) ∧ s.algorithm = s.part.algorithm ∧
      algorithm? s.algorithm = some algorithm ∧ Rsa.PublicKey.ofInfo signer = .ok rsa ∧
      rsa.verify algorithm s.part.octets s.signature = true := by
  unfold structureWith at h
  cases hr : read? der with
  | none =>
    rw [hr] at h
    cases h
  | some r =>
    obtain ⟨s, rest⟩ := r
    simp only [hr] at h
    split at h
    · cases h
    · rename_i he
      split at h
      · cases h
      · rename_i ha
        obtain ⟨algorithm, rsa, hn, hk, hv⟩ := of_signature h
        obtain rfl : rest = [] := by simpa using he
        exact ⟨s, algorithm, rsa, rfl, not_not.1 ha, hn, hk, hv⟩

/-- A structure that is read to its end, names one algorithm twice and is signed with that algorithm by the
key passes the check. -/
lemma structureWith_eq_ok {what : String} {read? : Octets → Option (Lenient.Signed × Octets)}
    {der : Octets} {signer : PublicKeyInfo} {s : Lenient.Signed} {algorithm : SignatureAlgorithm}
    {rsa : Rsa.PublicKey} (hr : read? der = some (s, [])) (hsame : s.algorithm = s.part.algorithm)
    (ha : algorithm? s.algorithm = some algorithm) (hk : Rsa.PublicKey.ofInfo signer = .ok rsa)
    (hv : rsa.verify algorithm s.part.octets s.signature = true) :
    structureWith what read? der signer = .ok () := by
  have hsignature : signature what s signer = .ok () := by
    simp only [signature, ha]
    rw [mapError_eq_ok_iff.2 hk, ok_bind, if_pos hv]
    rfl
  simp only [structureWith, hr]
  rw [if_neg (by simp), if_neg (not_not.2 hsame)]
  exact hsignature

end Verify

/-- What a key had to do with a structure that is given out. -/
structure SignedBy (key : SigningKey) (purpose : Purpose)
    (read? : Octets → Option (Lenient.Signed × Octets)) (der : Octets) (signer : PublicKeyInfo)
    (algorithm : SignatureAlgorithm) (tbs signature : Octets) : Prop where
  signer_eq : key.publicKey purpose = .ok signer
  algorithm_eq : key.algorithm purpose = .ok algorithm
  /-- The key answers the signature when it is given the signed part. -/
  signature_eq : key.sign purpose tbs = .ok signature
  /-- The structure is a SEQUENCE of the signed part, the algorithm and the signature. -/
  der_eq : ∃ t, t.encode = tbs ∧ t.Known ∧ (Lenient.signedTlv t algorithm.identifier signature).Fits ∧
    der = (Lenient.signedTlv t algorithm.identifier signature).encode
  /-- The reader finds the signed part and the signature, and the algorithm inside and outside of the
  signed part. -/
  read_eq : ∃ s, read? der = some (s, []) ∧ s.part.octets = tbs ∧ s.signature = signature ∧
    Verify.algorithm? s.part.algorithm = some algorithm ∧
    Verify.algorithm? s.algorithm = some algorithm
  verifies : ∃ rsa, Rsa.PublicKey.ofInfo signer = .ok rsa ∧ rsa.verify algorithm tbs signature = true

/-- What was strictly written and passes the check has everything that the check is about where the
writer put it. -/
lemma SignedBy.of_structureWith {key : SigningKey} {purpose : Purpose} {what : String}
    {fields? : Octets → Option (Lenient.Algorithm × Octets)} {der : Octets} {signer : PublicKeyInfo}
    {algorithm : SignatureAlgorithm} {t : Tlv} {signature : Octets}
    (hk : key.publicKey purpose = .ok signer) (ha : key.algorithm purpose = .ok algorithm)
    (hs : key.sign purpose t.encode = .ok signature) (ht : t.Known)
    (hf : (Lenient.signedTlv t algorithm.identifier signature).Fits)
    (hd : der = (Lenient.signedTlv t algorithm.identifier signature).encode)
    (hv : Verify.structureWith what (Lenient.signed? fields?) der signer = .ok ()) :
    SignedBy key purpose (Lenient.signed? fields?) der signer algorithm t.encode signature := by
  obtain ⟨s, named, rsa, hr, hsame, hn, hrsa, hver⟩ := Verify.of_structureWith hv
  obtain ⟨_, hpart, hoid, hsig, _⟩ := Lenient.eq_of_signed? ht hf (hd ▸ hr)
  have hnamed : Verify.algorithm? s.algorithm = some algorithm := Verify.algorithm?_of_oid hoid
  -- the check believes the algorithm that it finds, and finds the one that was written
  obtain rfl : named = algorithm := Option.some.inj (hn.symm.trans hnamed)
  rw [hpart, hsig] at hver
  exact ⟨hk, ha, hs, ⟨t, rfl, ht, hf, hd⟩, ⟨s, hr, hpart, hsig, hsame ▸ hn, hn⟩, ⟨rsa, hrsa, hver⟩⟩

namespace Authority

/-- Everything that is given out is signed by the key that was asked, whatever the key answers: the
reader finds in it the octets that the key was given to sign and the octets that the key answered, and
these verify with the public key and the algorithm that the key reports. The signed octets do not
depend on what signing answers: a key that reports the same is given the same octets to sign, and
nothing else of it matters. -/
theorem issued_is_signed (ca : Authority) (key : SigningKey) :
    (∀ request p now drawn cert, ca.issue request p key now drawn = .ok cert →
      ∃ signer algorithm tbs signature,
        SignedBy key .certSign Lenient.certificate? cert.der signer algorithm tbs signature ∧
        ∃ finish : Octets → Except Error IssuedCertificate, ∀ other : SigningKey,
          other.publicKey .certSign = .ok signer → other.algorithm .certSign = .ok algorithm →
            ca.issue request p other now drawn = other.sign .certSign tbs >>= finish) ∧
    (∀ entries number now list, ca.issueRevocationList entries number key now = .ok list →
      ∃ signer algorithm tbs signature,
        SignedBy key .crlSign Lenient.revocationList? list.der signer algorithm tbs signature ∧
        ∃ finish : Octets → Except Error IssuedRevocationList, ∀ other : SigningKey,
          other.publicKey .crlSign = .ok signer → other.algorithm .crlSign = .ok algorithm →
            ca.issueRevocationList entries number other now =
              other.sign .crlSign tbs >>= finish) := by
  refine ⟨?_, ?_⟩
  · intro request p now drawn cert h
    obtain ⟨run⟩ := exists_issueRun h
    refine ⟨run.signerKey, run.algorithm, run.tbs.tlv.encode, run.signature, ?_, ?_⟩
    · exact .of_structureWith run.signerKey_eq run.algorithm_eq run.signature_eq run.tbs.known_tlv
        run.fits run.der_eq run.verified
    · exact ⟨_, fun other hk ha => issue_eq hk ha run.window_eq run.tbs_eq run.tbs_fits⟩
  · intro entries number now list h
    obtain ⟨run⟩ := exists_listRun h
    refine ⟨run.signerKey, run.algorithm, run.tbs.tlv.encode, run.signature, ?_, ?_⟩
    · exact .of_structureWith run.signerKey_eq run.algorithm_eq run.signature_eq rfl run.fits
        run.der_eq run.verified
    · exact ⟨_, fun other hk ha => issueRevocationList_eq hk ha run.next_eq run.tbs_eq run.tbs_fits⟩

/-- The certificate and the revocation list of the small authority are signed. -/
theorem sample_is_signed :
    (∃ cert, Sample.authority.issue Sample.request Sample.profile Sample.token.signingKey Sample.now
        [1, 2, 3] = .ok cert ∧
      ∃ signer algorithm tbs signature, SignedBy Sample.token.signingKey .certSign
        Lenient.certificate? cert.der signer algorithm tbs signature) ∧
    (∃ list, Sample.authority.issueRevocationList Sample.entries 7 Sample.token.signingKey
        Sample.now = .ok list ∧
      ∃ signer algorithm tbs signature, SignedBy Sample.token.signingKey .crlSign
        Lenient.revocationList? list.der signer algorithm tbs signature) := by
  obtain ⟨cert, hc, -⟩ := Sample.exists_issue
  obtain ⟨list, hl⟩ := exists_of_isOk Sample.isOk_issueRevocationList
  obtain ⟨hcert, hlist⟩ := issued_is_signed Sample.authority Sample.token.signingKey
  obtain ⟨s, a, t, sig, h, _⟩ := hcert _ _ _ _ _ hc
  obtain ⟨s', a', t', sig', h', _⟩ := hlist _ _ _ _ hl
  exact ⟨⟨cert, hc, s, a, t, sig, h⟩, ⟨list, hl, s', a', t', sig', h'⟩⟩

end Authority

end CertAuthority
