import CertAuthority.Proofs.Certificate.Run
import CertAuthority.RevocationList.Issue

/-!
# What issuing a revocation list goes through

Issuing a revocation list is a sequence of steps like issuing a certificate. `ListRun` holds the
results of the steps of a run that did not fail, and `exists_listRun` finds them.
-/

namespace CertAuthority.Authority

open Der

/-- The results of the steps of issuing a revocation list. -/
structure ListRun (ca : Authority) (entries : List RevocationEntry) (number : Nat) (key : SigningKey)
    (now : Nat) (list : IssuedRevocationList) where
  signerKey : PublicKeyInfo
  algorithm : SignatureAlgorithm
  tbs : TbsRevocationList
  signature : Octets
  signerKey_eq : key.publicKey .crlSign = .ok signerKey
  algorithm_eq : key.algorithm .crlSign = .ok algorithm
  next_eq : ca.nextUpdate now = .ok list.nextUpdate
  tbs_eq : ca.prepareRevocationList entries number signerKey algorithm now list.nextUpdate = .ok tbs
  tbs_fits : tbs.tlv.Fits
  signature_eq : key.sign .crlSign tbs.tlv.encode = .ok signature
  fits : (RevocationList.tlv ⟨tbs, algorithm.identifier, .ofOctets signature⟩).Fits
  der_eq : list.der = (RevocationList.tlv ⟨tbs, algorithm.identifier, .ofOctets signature⟩).encode
  verified : Verify.revocationList list.der signerKey = .ok ()
  number_eq : list.number = number
  thisUpdate_eq : list.thisUpdate = now

/-- A revocation list that was issued went through all steps. -/
lemma exists_listRun {ca : Authority} {entries : List RevocationEntry} {number : Nat}
    {key : SigningKey} {now : Nat} {list : IssuedRevocationList}
    (h : ca.issueRevocationList entries number key now = .ok list) :
    Nonempty (ListRun ca entries number key now list) := by
  simp only [issueRevocationList, bind_eq_ok_iff, pure_eq_ok_iff, encoded_eq_ok_iff] at h
  obtain ⟨signerKey, hk, algorithm, ha, next, hn, tbs, ht, _, ⟨hfit, rfl⟩, signature, hs, der,
    ⟨hf, hd⟩, _, hv, rfl⟩ := h
  exact ⟨⟨signerKey, algorithm, tbs, signature, hk, ha, hn, ht, hfit, hs, hf, hd, hv, rfl, rfl⟩⟩

/-- What is left of issuing a revocation list when its signature is there. -/
def finishList (tbs : TbsRevocationList) (signerKey : PublicKeyInfo) (algorithm : SignatureAlgorithm)
    (number now next : Nat) (signature : Octets) : Except Error IssuedRevocationList := do
  let der ← (RevocationList.tlv ⟨tbs, algorithm.identifier, .ofOctets signature⟩).encoded
  Verify.revocationList der signerKey
  return { der, number, thisUpdate := now, nextUpdate := next }

/-- Issuing asks a key that reports the same to sign the same octets, and depends on its answer only. -/
lemma issueRevocationList_eq {ca : Authority} {entries : List RevocationEntry} {number : Nat}
    {key : SigningKey} {now next : Nat} {signerKey : PublicKeyInfo} {algorithm : SignatureAlgorithm}
    {tbs : TbsRevocationList} (hk : key.publicKey .crlSign = .ok signerKey)
    (ha : key.algorithm .crlSign = .ok algorithm) (hn : ca.nextUpdate now = .ok next)
    (ht : ca.prepareRevocationList entries number signerKey algorithm now next = .ok tbs)
    (hf : tbs.tlv.Fits) : ca.issueRevocationList entries number key now =
      key.sign .crlSign tbs.tlv.encode >>= finishList tbs signerKey algorithm number now next := by
  have he : tbs.tlv.encoded = .ok tbs.tlv.encode := encoded_eq_ok_iff.2 ⟨hf, rfl⟩
  rw [issueRevocationList, hk, ha, hn]
  simp only [ok_bind, ht, he]
  rfl

/-- A signed part that could be put together names the authority as its issuer, has the second version
and names the algorithm of the key. -/
lemma of_prepareRevocationList {ca : Authority} {entries : List RevocationEntry} {number : Nat}
    {signerKey : PublicKeyInfo} {algorithm : SignatureAlgorithm} {now next : Nat}
    {tbs : TbsRevocationList}
    (h : ca.prepareRevocationList entries number signerKey algorithm now next = .ok tbs) :
    ca.issuerName = .ok tbs.issuer ∧ tbs.version = TbsRevocationList.v2 ∧
      tbs.signature = algorithm.identifier := by
  simp only [prepareRevocationList, bind_eq_ok_iff, pure_eq_ok_iff] at h
  obtain ⟨revoked, _, issuer, hi, _, _, _, _, rfl⟩ := h
  exact ⟨hi, rfl, rfl⟩

end CertAuthority.Authority

namespace CertAuthority.Sample

def entries : List RevocationEntry :=
  [⟨⟨[5]⟩, now, .keyCompromise⟩]

/-- The authority issues a revocation list with one entry. -/
lemma isOk_issueRevocationList :
    (authority.issueRevocationList entries 7 token.signingKey now).isOk = true := by
  decide +kernel

end CertAuthority.Sample
