import CertAuthority.Proofs.Certificate.Verify
import CertAuthority.Proofs.Rsa.Transport
import CertAuthority.Proofs.SoftToken
import CertAuthority.Recovery.Wrapped

/-!
# Which private keys have a usable public half

A private key is read however long its modulus is, but a public key only up to `maxPublicModulusBits`. So
the public half of a private key that was read can always be written, but is refused from there on if the
modulus is longer (`ofInfo_publicKey_of_decode`), and a token that holds such a key issues nothing.
-/

namespace CertAuthority

open Der

namespace Der.Tlv

/-! ### Numbers that were read -/

/-- Numbers that were read in a row have the forms that they were read from. -/
lemma eq_map_ofInt_of_mapM {ts : List Tlv} {ns : List Nat} (h : ts.mapM toNat? = some ns) :
    ts = ns.map fun (n : Nat) => ofInt n := by
  induction ts generalizing ns with
  | nil =>
    cases h
    rfl
  | cons t ts ih =>
    rw [List.mapM_cons] at h
    obtain ⟨n, hn, h⟩ := Option.bind_eq_some_iff.1 h
    obtain ⟨ns, hns, h⟩ := Option.bind_eq_some_iff.1 h
    cases h
    rw [List.map_cons, ← eq_ofInt_of_toNat? hn, ← ih hns]

/-- An encoding has a tag and a length. -/
lemma two_le_length_encode (t : Tlv) : 2 ≤ t.encode.length := by
  have hpos : 1 ≤ (lengthOctets t.content.length).length := by
    rw [length_lengthOctets]
    split <;> omega
  rw [length_encode, encodedLength]
  omega

/-- An element is longer than another by at least as much as its content is. -/
lemma encodedLength_add_le {m n : Nat} (h : m ≤ n) : encodedLength m + (n - m) ≤ encodedLength n := by
  have hmono := length_lengthOctets_mono h
  unfold encodedLength
  omega

end Der.Tlv

namespace Rsa

namespace PrivateKey

/-- The numbers of a key are read from the element that holds them and four others. -/
lemma of_parts_ofTlv? {t : Tlv} {parts : Parts} (h : Parts.ofTlv? t = some parts) :
    ∃ m₁ m₂ m₃ : Nat, t = Tlv.sequence (([0, parts.modulus, parts.publicExponent, parts.exponent, parts.prime1,
      parts.prime2, m₁, m₂, m₃] : List Nat).map fun (n : Nat) => Tlv.ofInt n) := by
  obtain ⟨ts, hinside, h⟩ := Option.bind_eq_some_iff.1 h
  obtain ⟨ns, hmapM, h⟩ := Option.bind_eq_some_iff.1 h
  split at h
  · rename_i m₁ m₂ m₃
    cases h
    refine ⟨m₁, m₂, m₃, ?_⟩
    rw [(Tlv.eq_of_inside? hinside).1, Tlv.eq_map_ofInt_of_mapM hmapM]
    rfl
  · cases h

/-- What a private key is read from. -/
lemma of_parts? {bs : Octets} {parts : Parts} (h : parts? bs = some parts) :
    ∃ version algorithm inner rest, Parts.ofTlv? inner = some parts ∧
      (Tlv.sequence (version :: algorithm :: Tlv.ofOctets inner.encode :: rest)).Fits := by
  obtain ⟨t, hdecode, h⟩ := Option.bind_eq_some_iff.1 h
  obtain ⟨ts, hinside, h⟩ := Option.bind_eq_some_iff.1 h
  split at h
  · rename_i version algorithm key rest
    obtain ⟨v, -, h⟩ := Option.bind_eq_some_iff.1 h
    split at h
    · cases h
    · obtain ⟨a, -, h⟩ := Option.bind_eq_some_iff.1 h
      split at h
      · cases h
      · obtain ⟨os, hos, h⟩ := Option.bind_eq_some_iff.1 h
        obtain ⟨inner, hinner, h⟩ := Option.bind_eq_some_iff.1 h
        refine ⟨version, algorithm, inner, rest, h, ?_⟩
        rw [← (Tlv.eq_of_decode? hinner).1, ← Tlv.eq_ofOctets_of_toOctets? hos]
        have hfits := (Tlv.eq_of_decode? hdecode).2.fits
        rwa [(Tlv.eq_of_inside? hinside).1] at hfits
  · cases h

/-- The numbers of a public key are shorter than those of a private key. -/
lemma length_content_numbers (n e d p q m₁ m₂ m₃ : Nat) :
    (Tlv.sequence [.ofInt n, .ofInt e]).content.length + 14 ≤
      (Tlv.sequence (([0, n, e, d, p, q, m₁, m₂, m₃] : List Nat).map
        fun (n : Nat) => Tlv.ofInt n)).content.length := by
  have hnumber := fun n : Nat => Tlv.two_le_length_encode (Tlv.ofInt n)
  have hsum := Nat.add_le_add (hnumber 0) (Nat.add_le_add (hnumber d) (Nat.add_le_add (hnumber p)
    (Nat.add_le_add (hnumber q) (Nat.add_le_add (hnumber m₁) (Nat.add_le_add (hnumber m₂) (hnumber m₃))))))
  simp only [Tlv.sequence, Tlv.content_around, List.map_cons, List.map_nil, List.flatMap_cons,
    List.flatMap_nil, List.length_append, List.length_nil]
  omega

/-- The public half of a private key that was read is not too long to be read. -/
lemma info_fits_of_parts? {bs : Octets} {parts : Parts} {k : PublicKey} (h : parts? bs = some parts)
    (hmodulus : parts.modulus = k.modulus) (hexponent : parts.publicExponent = publicExponent) :
    k.info.tlv.Fits := by
  obtain ⟨version, algorithm, inner, rest, hparts, hfits⟩ := of_parts? h
  obtain ⟨m₁, m₂, m₃, rfl⟩ := of_parts_ofTlv? hparts
  have hnumbers := length_content_numbers parts.modulus parts.publicExponent parts.exponent parts.prime1
    parts.prime2 m₁ m₂ m₃
  rw [hmodulus, hexponent] at hnumbers hfits
  generalize Tlv.sequence (List.map _ _) = inner at hnumbers hfits
  -- the private key has a version besides, and the public key an octet for unused bits
  have hversion := Tlv.two_le_length_encode version
  have hother := Tlv.two_le_length_encode algorithm
  have halgorithm : (AlgorithmIdentifier.withNull Oid.rsaEncryption).tlv.encode.length = 15 := by
    decide +kernel
  have hkey : k.info.key.content.length =
      1 + Tlv.encodedLength (Tlv.sequence [.ofInt k.modulus, .ofInt publicExponent]).content.length := by
    rw [← Tlv.length_encode, Nat.add_comm]
    rfl
  have hinner := Tlv.encodedLength_add_le (Nat.le_of_add_right_le hnumbers)
  have houter : 1 + Tlv.encodedLength (Tlv.sequence [.ofInt k.modulus, .ofInt publicExponent]).content.length ≤
    Tlv.encodedLength inner.content.length := by omega
  have hlength := Tlv.encodedLength_add_le houter
  have hprivate : version.encode.length + (algorithm.encode.length +
      (Tlv.encodedLength (Tlv.encodedLength inner.content.length) + (rest.flatMap Tlv.encode).length)) ≤
        maxLength := by
    have hoctets : (Tlv.ofOctets inner.encode).encode.length =
        Tlv.encodedLength (Tlv.encodedLength inner.content.length) := by
      rw [Tlv.length_encode, ← Tlv.length_encode inner]
      rfl
    simpa only [Tlv.Fits, Tlv.sequence, Tlv.content_around, List.flatMap_cons, List.length_append, hoctets]
      using hfits
  have hpublic : k.info.tlv.content.length = 15 + Tlv.encodedLength k.info.key.content.length := by
    have hbits : (Tlv.ofBitString k.info.key).encode.length =
        Tlv.encodedLength k.info.key.content.length := Tlv.length_encode _
    rw [PublicKeyInfo.tlv, Tlv.sequence, Tlv.content_around, List.flatMap_cons, List.flatMap_cons,
      List.flatMap_nil, List.append_nil, List.length_append, hbits, ← halgorithm]
    rfl
  rw [Tlv.Fits, hpublic, hkey]
  omega

end PrivateKey

namespace PublicKey

/-- The numbers in a public key that is not too long are read if the modulus is in its range. -/
lemma parts?_info {k : PublicKey} (h : k.info.tlv.Fits) :
    parts? k.info = if bitLength k.modulus ≤ maxPublicModulusBits then some (k.modulus, publicExponent)
      else none := by
  have hguard : ¬ (decide (k.info.algorithm ≠ .withNull Oid.rsaEncryption) ||
      decide (k.info.key.unused ≠ 0)) = true := by
    simp [info, BitString.ofOctets]
  have hbits : (Tlv.ofBitString k.info.key).Fits := h.of_mem (by simp)
  have hkey : (Tlv.sequence [.ofInt k.modulus, .ofInt publicExponent]).Fits :=
    Nat.le_trans (Tlv.le_encodedLength _) (Nat.le_trans (Nat.le_of_eq (Tlv.length_encode _).symm)
      (Nat.le_trans (Nat.le_succ _) hbits))
  have hdecode : Tlv.decode? k.info.key.octets = some (Tlv.sequence [.ofInt k.modulus, .ofInt publicExponent]) :=
    Tlv.decode?_encode ⟨Tlv.known_sequence _, hkey⟩
  have hinside : (Tlv.sequence [.ofInt k.modulus, .ofInt publicExponent]).inside? Tag.sequence =
      some [.ofInt k.modulus, .ofInt publicExponent] :=
    Tlv.inside?_around hkey (by simp)
  rw [parts?, if_neg hguard, hdecode]
  simp only [Option.bind_eq_bind, Option.bind_some, hinside, Tlv.toNat?_ofInt]
  by_cases hlength : bitLength k.modulus ≤ maxPublicModulusBits
  · simp [hlength, publicExponent, exponentBound]
  · simp [hlength]

/-- The public half of a key is accepted exactly if its modulus is not too large. -/
lemma ofInfo_info {k : PublicKey} (h : k.info.tlv.Fits) :
    ofInfo k.info = if bitLength k.modulus ≤ maxPublicModulusBits then .ok k else .error .malformedPublicKey := by
  have halgorithm : k.info.algorithm.algorithm = Oid.rsaEncryption := rfl
  rw [ofInfo, if_pos halgorithm, read, parts?_info h]
  by_cases hlength : bitLength k.modulus ≤ maxPublicModulusBits
  · simp only [if_pos hlength, checkParts, dif_pos k.longEnough, if_true]
    rfl
  · simp only [if_neg hlength]

/-- A general public key that is read as an RSA key is written as one. -/
lemma of_parts? {info : PublicKeyInfo} {n e : Nat} (h : parts? info = some (n, e)) :
    info.algorithm = .withNull Oid.rsaEncryption ∧
      info.key = .ofOctets (Tlv.sequence [.ofInt n, .ofInt e]).encode ∧ bitLength n ≤ maxPublicModulusBits := by
  unfold parts? at h
  split at h
  · cases h
  · rename_i hguard
    simp only [Bool.or_eq_true, decide_eq_true_eq, not_or, not_not] at hguard
    obtain ⟨t, hdecode, h⟩ := Option.bind_eq_some_iff.1 h
    obtain ⟨ts, hinside, h⟩ := Option.bind_eq_some_iff.1 h
    split at h
    · rename_i modulus exponent
      obtain ⟨n', hn, h⟩ := Option.bind_eq_some_iff.1 h
      obtain ⟨e', he, h⟩ := Option.bind_eq_some_iff.1 h
      split at h
      · rename_i hrange
        cases h
        have hlength : bitLength n ≤ maxPublicModulusBits := by
          simp only [Bool.and_eq_true, decide_eq_true_eq] at hrange
          exact hrange.1.1
        -- What was decoded is written back the same way, and so the octets of the key are determined.
        obtain ⟨rfl, -⟩ := Tlv.eq_of_inside? hinside
        obtain ⟨hoctets, -⟩ := Tlv.eq_of_decode? hdecode
        rw [Tlv.eq_ofInt_of_toNat? hn, Tlv.eq_ofInt_of_toNat? he] at hoctets
        refine ⟨hguard.1, ?_, hlength⟩
        obtain ⟨algorithm, unused, octets, hle⟩ := info
        obtain rfl : unused = 0 := hguard.2
        obtain rfl : octets = (Tlv.sequence [.ofInt n, .ofInt e]).encode := hoctets
        rfl
      · cases h
    · cases h

/-- A short element is not much longer than its content. -/
lemma length_encode_le {t : Tlv} {n : Nat} (h : t.content.length ≤ n) (hn : n ≤ maxLength) :
    t.encode.length ≤ n + 6 := by
  have hlength := length_lengthOctets_le (Nat.le_trans h hn)
  rw [Tlv.length_encode, Tlv.encodedLength]
  omega

/-- A key whose modulus is in its range is written in few octets. -/
lemma info_fits {k : PublicKey} (h : bitLength k.modulus ≤ maxPublicModulusBits) : k.info.tlv.Fits := by
  have hmodulus : (Tlv.ofInt k.modulus).content.length ≤ 513 := by
    have hwidth : (Tlv.ofInt k.modulus).content.length = signedWidth k.modulus := Octets.length_fixed _ _
    rw [hwidth, signedWidth]
    split
    · decide
    · rename_i hzero
      rw [bitLength, if_neg hzero, maxPublicModulusBits] at h
      omega
  have hexponent : (Tlv.ofInt publicExponent).encode.length = 5 := rfl
  have halgorithm : k.info.algorithm.tlv.encode.length = 15 := rfl
  have hnumbers : (Tlv.sequence [.ofInt k.modulus, .ofInt publicExponent]).content.length ≤ 524 := by
    have hlength := length_encode_le hmodulus (by decide)
    rw [Tlv.sequence, Tlv.content_around, List.flatMap_cons, List.flatMap_cons, List.flatMap_nil, List.append_nil,
      List.length_append, hexponent]
    omega
  have hkey : (Tlv.ofBitString k.info.key).content.length ≤ 531 :=
    Nat.succ_le_succ (length_encode_le hnumbers (by decide))
  have hbits := length_encode_le hkey (by decide)
  have hall : k.info.tlv.content.length ≤ 552 := by
    rw [PublicKeyInfo.tlv, Tlv.sequence, Tlv.content_around, List.flatMap_cons, List.flatMap_cons, List.flatMap_nil,
      List.append_nil, List.length_append, halgorithm]
    omega
  exact Nat.le_trans hall (by decide)

/-- A general public key is read as an RSA key exactly if it is that key written, and the modulus is in its
range. -/
lemma ofInfo_eq_ok_iff {info : PublicKeyInfo} {k : PublicKey} :
    ofInfo info = .ok k ↔ info = k.info ∧ bitLength k.modulus ≤ maxPublicModulusBits := by
  constructor
  · intro h
    unfold ofInfo at h
    split at h
    · unfold read at h
      split at h
      · cases h
      · rename_i n e hparts
        obtain ⟨large, hcheck, h⟩ := bind_eq_ok_iff.1 h
        cases h
        obtain ⟨halgorithm, hkey, hlength⟩ := of_parts? hparts
        refine ⟨?_, hlength⟩
        unfold checkParts at hcheck
        split at hcheck
        · split at hcheck
          · rename_i he
            subst he
            obtain ⟨algorithm, key⟩ := info
            cases halgorithm
            cases hkey
            rfl
          · cases hcheck
        · cases hcheck
    · cases h
  · rintro ⟨rfl, h⟩
    rw [ofInfo_info (info_fits h), if_pos h]

end PublicKey

namespace PrivateKey

/-- A private key that was read has the numbers that it was read from, and the supported exponent. -/
lemma exists_parts_of_decode {bs : Octets} {k : PrivateKey} (h : decode bs = .ok k) :
    ∃ parts, parts? bs = some parts ∧ parts.modulus = k.publicKey.modulus ∧
      parts.publicExponent = publicExponent := by
  unfold decode at h
  split at h
  · cases h
  · rename_i n e d p q hparts
    split at h
    · split at h
      · split at h
        · rename_i hexponent
          cases h
          exact ⟨_, hparts, rfl, hexponent⟩
        · cases h
      · cases h
    · cases h

end PrivateKey

end Rsa

namespace Rsa.PrivateKey

/-- A key is read from octets that hold its numbers. -/
lemma decode_of_parts? {bs : Octets} {k : PrivateKey} (h : parts? bs =
    some ⟨k.modulus, publicExponent, k.exponent, k.prime1, k.prime2⟩) : decode bs = .ok k := by
  have hnumbers : 2 ≤ publicExponent ∧ publicExponent < exponentBound ∧ k.prime1 * k.prime2 = k.modulus ∧
      Inverts k.exponent k.prime1 publicExponent ∧ Inverts k.exponent k.prime2 publicExponent :=
    ⟨by decide, by decide, k.product, k.inverts1, k.inverts2⟩
  simp only [decode, h, dif_pos hnumbers, dif_pos k.longEnough, dif_pos]

/-- The public half of a private key that was read can be written. It is read as the same key exactly if the
modulus is not longer than public keys may be. If it is longer, then a token that holds the key for a
purpose does nothing with it: no certificate, no revocation list and no wrapped key pair is given out. -/
theorem ofInfo_publicKey_of_decode {bs : Octets} {k : PrivateKey} (h : decode bs = .ok k) :
    PublicKeyInfo.decode? k.publicKey.encode = some k.publicKey.info ∧
    (PublicKey.ofInfo k.publicKey.info = .ok k.publicKey ↔ bitLength k.modulus ≤ maxPublicModulusBits) ∧
    (maxPublicModulusBits < bitLength k.modulus → ∀ (t : SoftToken) (a : SignatureAlgorithm),
      (t.keys .certSign = some ⟨k, a⟩ → ∀ (ca : Authority) request p now drawn issued,
        ca.issue request p t.signingKey now drawn ≠ .ok issued) ∧
      (t.keys .crlSign = some ⟨k, a⟩ → ∀ (ca : Authority) entries number now issued,
        ca.issueRevocationList entries number t.signingKey now ≠ .ok issued) ∧
      (t.keys .keyEncrypt = some ⟨k, a⟩ → ∀ (pair : KeyPair) draw wrapped,
        pair.wrap t.signingKey draw ≠ .ok wrapped)) := by
  obtain ⟨parts, hparts, hmodulus, hexponent⟩ := exists_parts_of_decode h
  have hfits : k.publicKey.info.tlv.Fits := info_fits_of_parts? hparts hmodulus hexponent
  have hread : PublicKey.ofInfo k.publicKey.info = if bitLength k.modulus ≤ maxPublicModulusBits
      then .ok k.publicKey else .error .malformedPublicKey := PublicKey.ofInfo_info hfits
  refine ⟨?_, ?_, ?_⟩
  · have hdecode := Tlv.decode?_encode ⟨k.publicKey.info.known_tlv, hfits⟩
    rw [PublicKey.encode, PublicKeyInfo.decode?, PublicKeyInfo.encode, hdecode]
    exact (PublicKeyInfo.ofTlv?_tlv_iff hfits).2 ⟨rfl, (by decide : 3 ≤ Oid.rsaEncryption.octets.length)⟩
  · rw [hread]
    split <;> simp [*]
  -- Certificates and lists are checked with this key, and key pairs are wrapped for it; it cannot be read.
  · intro hlong t a
    rw [if_neg (Nat.not_le_of_lt hlong)] at hread
    refine ⟨?_, ?_, ?_⟩
    · intro hk ca request p now drawn issued hissue
      obtain ⟨run⟩ := Authority.exists_issueRun hissue
      obtain ⟨_, _, _, _, _, _, hrsa, _⟩ := Verify.of_structureWith run.verified
      rw [SoftToken.eq_of_publicKey hk run.signerKey_eq, hread] at hrsa
      cases hrsa
    · intro hk ca entries number now issued hissue
      obtain ⟨run⟩ := Authority.exists_listRun hissue
      obtain ⟨_, _, _, _, _, _, hrsa, _⟩ := Verify.of_structureWith run.verified
      rw [SoftToken.eq_of_publicKey hk run.signerKey_eq, hread] at hrsa
      cases hrsa
    · intro hk pair draw wrapped hwrap
      obtain ⟨recipient, hrecipient, hwrap⟩ := bind_eq_ok_iff.1 hwrap
      obtain ⟨transport, htransport, -⟩ := bind_eq_ok_iff.1 hwrap
      rw [mapError_eq_ok_iff, SoftToken.eq_of_publicKey hk hrecipient, hread] at htransport
      cases htransport

end Rsa.PrivateKey

namespace Sample

/-- The octets of the key of the small authority. -/
def privateKeyOctets : Octets :=
  privateKey.encode.toOption.getD []

def longPrime1 : Nat := Nat.pow 2 2100 + 1

def longPrime2 : Nat := Nat.pow 2 2100 + 3

/-- A key that is longer than public keys may be. -/
def longKey : Rsa.PrivateKey where
  modulus := longPrime1 * longPrime2
  exponent := (Rsa.inverse? Rsa.publicExponent ((longPrime1 - 1) * (longPrime2 - 1))).getD 0
  prime1 := longPrime1
  prime2 := longPrime2
  longEnough := by decide +kernel
  product := rfl
  inverts1 := by decide +kernel
  inverts2 := by decide +kernel

def longKeyOctets : Octets :=
  longKey.encode.toOption.getD []

end Sample

namespace Rsa.PrivateKey

/-- The public half of a small key is decoded and accepted. -/
theorem sample_public_half : decode Sample.privateKeyOctets = .ok Sample.privateKey ∧
    PublicKeyInfo.decode? Sample.privateKey.publicKey.encode = some Sample.privateKey.publicKey.info ∧
    PublicKey.ofInfo Sample.privateKey.publicKey.info = .ok Sample.privateKey.publicKey := by
  have h : decode Sample.privateKeyOctets = .ok Sample.privateKey := decode_of_parts? (by decide +kernel)
  obtain ⟨hwritten, hread, -⟩ := ofInfo_publicKey_of_decode h
  exact ⟨h, hwritten, hread.2 (by decide +kernel)⟩

/-- A private key with a modulus of more bits is read, but its public half is refused. -/
theorem exists_decode_and_ofInfo_fails : ∃ bs k, decode bs = .ok k ∧
    PublicKey.ofInfo k.publicKey.info = .error .malformedPublicKey :=
  ⟨Sample.longKeyOctets, Sample.longKey, decode_of_parts? (by decide +kernel), by decide +kernel⟩

end Rsa.PrivateKey

end CertAuthority
