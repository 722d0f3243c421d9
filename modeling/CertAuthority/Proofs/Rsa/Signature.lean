import CertAuthority.Proofs.Rsa.Transport

/-!
# Signatures that were made verify

Signing checks its own result with the public exponent, so whatever numbers a private key has, a signature
that it makes is one for its public half (`PrivateKey.verify_of_sign`).
-/

namespace CertAuthority.Rsa

/-- A padded message has the size of the key. -/
lemma length_of_signaturePadded? {size : Nat} {algorithm : SignatureAlgorithm} {message padded : Octets}
    (h : signaturePadded? size algorithm message = some padded) : padded.length = size := by
  unfold signaturePadded? at h
  simp only at h
  split at h
  · cases h
  · rename_i hsize
    cases h
    simp only [List.length_append, List.length_cons, List.length_nil, List.length_replicate]
    omega

namespace PrivateKey

variable {k : PrivateKey}

/-- A number that is found by the private half was checked with the public one. -/
lemma of_invert? {n m : Nat} (h : k.invert? n = some m) : m < k.modulus ∧ k.publicKey.apply m = n := by
  unfold invert? at h
  simp only at h
  split at h
  · rename_i happly
    cases h
    refine ⟨?_, happly⟩
    rw [powMod_eq]
    exact Nat.mod_lt _ (Nat.pos_of_ne_zero k.publicKey.modulus_ne_zero)
  · cases h

/-- A signature that was made verifies under the public half of the key. -/
theorem verify_of_sign {algorithm : SignatureAlgorithm} {message signature : Octets}
    (h : k.sign algorithm message = .ok signature) :
    k.publicKey.verify algorithm message signature = true := by
  unfold sign at h
  split at h
  · cases h
  · rename_i padded hpadded
    split at h
    · cases h
    · rename_i s hs
      cases h
      obtain ⟨hbelow, happly⟩ := of_invert? hs
      have hoctets : Octets.fixed k.publicKey.size (k.publicKey.apply s) = padded := by
        rw [happly, ← length_of_signaturePadded? hpadded]
        exact Octets.fixed_toNat padded
      have hlt : s < k.publicKey.modulus := hbelow
      simp [PublicKey.verify, PublicKey.toNat_fixed_of_lt hlt, hlt, hoctets, hpadded]

end PrivateKey

end CertAuthority.Rsa
