import CertAuthority.Proofs.Error
import CertAuthority.SoftToken

/-!
# What a soft token answers

A soft token answers for a purpose exactly if it is on line and has a key for it (`usable_eq_ok_iff`), and all
that it answers comes from that key (`exists_key_of_publicKey`).
-/

namespace CertAuthority.SoftToken

variable {t : SoftToken} {purpose : Purpose} {k : SoftKey}

/-- A key can be used exactly if the token is on line and has it. -/
lemma usable_eq_ok_iff : t.usable purpose = .ok k ↔ t.active = true ∧ t.keys purpose = some k := by
  unfold usable
  by_cases hactive : t.active = true
  · cases hk : t.keys purpose <;> simp [hactive]
  · simp [hactive]

/-- A token that is on line tells the public half of its key. -/
lemma publicKey_signingKey (hactive : t.active = true) (hk : t.keys purpose = some k) :
    t.signingKey.publicKey purpose = .ok k.key.publicKey.info :=
  bind_eq_ok_iff.2 ⟨k, usable_eq_ok_iff.2 ⟨hactive, hk⟩, rfl⟩

/-- A token that is on line decrypts with its key. -/
lemma decrypt_signingKey_eq_ok_iff (hactive : t.active = true) (hk : t.keys purpose = some k)
    {c message : Octets} :
    t.signingKey.decrypt purpose c = .ok message ↔ k.key.decrypt c = .ok message := by
  have husable : t.usable purpose = .ok k := usable_eq_ok_iff.2 ⟨hactive, hk⟩
  simp only [signingKey, husable, ok_bind, operation, mapError_eq_ok_iff]

/-- A token that reports a public key has a key, and signs with it. -/
lemma exists_key_of_publicKey {signer : PublicKeyInfo}
    (h : t.signingKey.publicKey purpose = .ok signer) :
    ∃ k, t.keys purpose = some k ∧ signer = k.key.publicKey.info ∧
      t.signingKey.algorithm purpose = .ok k.algorithm ∧
      ∀ message, t.signingKey.sign purpose message = operation purpose (k.key.sign k.algorithm message) := by
  obtain ⟨k, husable, hsigner⟩ := bind_eq_ok_iff.1 h
  cases hsigner
  have halgorithm : t.signingKey.algorithm purpose = .ok k.algorithm :=
    bind_eq_ok_iff.2 ⟨k, husable, rfl⟩
  have hsign (message : Octets) : t.signingKey.sign purpose message =
      operation purpose (k.key.sign k.algorithm message) := by
    simp only [signingKey, husable, ok_bind]
  exact ⟨k, (usable_eq_ok_iff.1 husable).2, rfl, halgorithm, hsign⟩

/-- A soft token reports the public half of its key. -/
lemma eq_of_publicKey {signer : PublicKeyInfo} (hk : t.keys purpose = some k)
    (h : t.signingKey.publicKey purpose = .ok signer) : signer = k.key.publicKey.info := by
  obtain ⟨k', hk', rfl, -⟩ := exists_key_of_publicKey h
  rw [Option.some.inj (hk.symm.trans hk')]

end CertAuthority.SoftToken
