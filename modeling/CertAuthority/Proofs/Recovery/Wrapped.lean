import CertAuthority.Proofs.Certificate.Run
import CertAuthority.Proofs.Cipher.Decrypted
import CertAuthority.Proofs.Recovery.Envelope
import CertAuthority.Proofs.Rsa.Transport
import CertAuthority.Proofs.SoftToken

/-!
# Wrapped key pairs are unwrapped again

A token that holds a transport key wraps every key pair that is not too long, and unwraps what it has wrapped to
the same key pair (`KeyPair.unwrap_wrap`), whatever is drawn. Of the transport key it is asked only that it
decrypts what was encrypted for it.
-/

namespace CertAuthority

open Der Cipher Recovery

/-! ### Key pairs -/

namespace KeyPair

/-- A key pair has a known tag, that of a sequence. -/
@[simp] lemma known_tlv (p : KeyPair) : p.tlv.Known :=
  rfl

/-- A key pair is read again exactly if the identifier of its algorithm is long enough. -/
lemma decode?_encode_iff {p q : KeyPair} {shortest : Nat} (h : p.tlv.Fits) :
    decode? p.tlv.encode shortest = some q ↔
      q = p ∧ shortest ≤ p.publicKey.algorithm.algorithm.octets.length := by
  have hdecode := Tlv.decode?_encode ⟨p.known_tlv, h⟩
  have hinside : p.tlv.inside? Tag.sequence = some [.ofOctets p.privateKey, p.publicKey.tlv] :=
    Tlv.inside?_around h (by simp)
  have hkey : p.publicKey.tlv.Fits := h.of_mem (by simp)
  simp only [decode?, hdecode, ofTlv?, hinside, Tlv.toOctets?_ofOctets, Option.bind_eq_bind,
    Option.bind_some]
  exact bind_eq_some_iff_of_part (fun _ => PublicKeyInfo.ofTlv?_tlv_iff hkey) rfl

/-- How many octets there are in a wrapped key pair around which the last element is put, for a transport key of
the given size. -/
def wrappedLength (p : KeyPair) (size : Nat) : Nat :=
  let octets := Tlv.encodedLength (Tlv.encodedLength p.privateKey.length + p.publicKey.encode.length)
  envelopeLength size (Block.size * (octets / Block.size + 1))

/-- The length of the form of a key pair depends on the lengths of its parts only. -/
lemma length_encode_tlv (p : KeyPair) : p.tlv.encode.length =
    Tlv.encodedLength (Tlv.encodedLength p.privateKey.length + p.publicKey.encode.length) := by
  have hprivate : (Tlv.ofOctets p.privateKey).encode.length = Tlv.encodedLength p.privateKey.length :=
    Tlv.length_encode _
  have hpublic : p.publicKey.tlv.encode.length = p.publicKey.encode.length := rfl
  rw [Tlv.length_encode]
  simp only [tlv, Tlv.sequence, Tlv.content_around, List.flatMap_cons, List.flatMap_nil,
    List.length_append, List.length_nil, hprivate, hpublic, Nat.add_zero]

/-- A key pair whose wrapped form is not too long is not too long itself. -/
lemma fits_of_wrappedLength {p : KeyPair} {size : Nat} (h : p.wrappedLength size ≤ maxLength) :
    p.tlv.Fits := by
  have hencrypted : p.tlv.encode.length ≤ Block.size * (p.tlv.encode.length / Block.size + 1) := by
    unfold Block.size
    omega
  have hlength : Block.size * (p.tlv.encode.length / Block.size + 1) ≤ p.wrappedLength size := by
    rw [wrappedLength, ← length_encode_tlv]
    exact le_envelopeLength _ _
  have hcontent := Tlv.le_encodedLength p.tlv.content.length
  rw [← Tlv.length_encode] at hcontent
  exact Nat.le_trans hcontent (Nat.le_trans hencrypted (Nat.le_trans hlength h))

end KeyPair

/-! ### Undoing the two encryptions -/

namespace Recovery

/-- The one recipient of an envelope is found. -/
lemma findSome?_withKey?_envelope {id encryptedKey octets : Octets} {first : Block} :
    (envelope id encryptedKey first octets).recipients.findSome? (Recipient.withKey? id) =
      some (transportTo id encryptedKey) := by
  rw [envelope, List.findSome?_cons, Recipient.withKey?, if_pos rfl]
  rfl

variable {key : SigningKey} {contentKey : Aes.Key}

/-- A content key is found exactly if it was transported by RSA and decrypts to the octets of a key. -/
lemma contentKeyOf_eq_ok_iff {k : KeyTransport} : contentKeyOf key k = .ok contentKey ↔
    k.algorithm.algorithm = Oid.rsaEncryption ∧
      key.decrypt .keyEncrypt k.encryptedKey = .ok contentKey.octets := by
  by_cases halgorithm : k.algorithm.algorithm = Oid.rsaEncryption
  · rw [contentKeyOf, if_neg (not_not.2 halgorithm)]
    show ((key.decrypt .keyEncrypt k.encryptedKey).mapError _ >>= _) = _ ↔ _
    simp only [bind_eq_ok_iff, mapError_eq_ok_iff, orFail_eq_ok_iff, halgorithm, true_and]
    constructor
    · rintro ⟨octets, hdecrypt, hoctets⟩
      rw [hdecrypt, Aes.Key.eq_of_ofOctets? hoctets]
    · exact fun hdecrypt => ⟨_, hdecrypt, Aes.Key.ofOctets?_octets contentKey⟩
  · rw [contentKeyOf, if_pos halgorithm]
    simp only [halgorithm, false_and, iff_false]
    exact nofun

/-- A content that is encrypted after a block. -/
def encryptedContent (type : Oid) (first : Block) (octets : Octets) : EncryptedContent :=
  ⟨type, ⟨Oid.aes256Cbc, some (.ofOctets first.octets)⟩, some octets⟩

/-- A content is decrypted exactly if it is the encryption of the message, in the one form that it may have. -/
lemma decryptContent_eq_ok_iff {c : EncryptedContent} {message : Octets} :
    decryptContent contentKey c = .ok message ↔
      ∃ type first, c = encryptedContent type first (Cbc.encrypt contentKey first message) := by
  constructor
  · intro h
    obtain ⟨type, ⟨algorithm, parameters⟩, octets⟩ := c
    by_cases halgorithm : algorithm = Oid.aes256Cbc
    · subst halgorithm
      simp only [decryptContent, ne_eq, not_true_eq_false, if_false, bind_eq_ok_iff, orFail_eq_ok_iff] at h
      obtain ⟨⟨t, ht⟩, rfl, firstOctets, hfirst, octets, rfl, first, hblock, hdecrypt⟩ := h
      cases Tlv.eq_ofOctets_of_toOctets? hfirst
      cases Block.eq_of_ofOctets? hblock
      cases Cbc.decrypt?_eq_some_iff.1 hdecrypt
      exact ⟨type, first, rfl⟩
    · rw [decryptContent, if_pos halgorithm] at h
      cases h
  · rintro ⟨type, first, rfl⟩
    have hfirst : (Any.ofOctets first.octets).tlv.toOctets? = some first.octets := Tlv.toOctets?_ofOctets _
    simp only [decryptContent, encryptedContent, ne_eq, not_true_eq_false, if_false, orFail, hfirst,
      Block.ofOctets?_octets, Cbc.decrypt?_encrypt, ok_bind]

end Recovery

/-! ### Key pairs in envelopes -/

namespace KeyPair

variable {p : KeyPair} {t : SoftToken} {k : SoftKey} {draw : Draw} {encryptedKey : Octets}

/-- The element of a key pair in its envelope. -/
def wrappedTlv (p : KeyPair) (recipient : PublicKeyInfo) (encryptedKey : Octets) (draw : Draw) : Tlv :=
  TypedContent.tlv ⟨Oid.envelopedData, (envelope recipient.keyIdentifier encryptedKey draw.first
    (Cbc.encrypt draw.contentKey draw.first p.tlv.encode)).tlv⟩

/-- The length of what is wrapped depends on the lengths of the key pair and of the transported key only. -/
lemma length_wrappedTlv (recipient : PublicKeyInfo) :
    (p.wrappedTlv recipient encryptedKey draw).content.length = p.wrappedLength encryptedKey.length := by
  rw [wrappedTlv, length_envelope recipient.length_keyIdentifier, Cbc.length_encrypt, length_encode_tlv]
  rfl

/-- A token that can encrypt for its transport key wraps every key pair that is not too long. -/
lemma wrap_eq (hactive : t.active = true) (hk : t.keys .keyEncrypt = some k)
    (haccepted : Rsa.PublicKey.ofInfo k.key.publicKey.info = .ok k.key.publicKey)
    (hencrypt : k.key.publicKey.encrypt draw.padding draw.contentKey.octets = .ok encryptedKey)
    (hlength : p.wrappedLength encryptedKey.length ≤ maxLength) :
    p.wrap t.signingKey draw =
      .ok (p.wrappedTlv k.key.publicKey.info encryptedKey draw).encode := by
  have hpair : Recovery.encoded p.tlv = .ok p.tlv.encode :=
    mapError_eq_ok_iff.2 (encoded_eq_ok_iff.2 ⟨fits_of_wrappedLength hlength, rfl⟩)
  have hfits : (p.wrappedTlv k.key.publicKey.info encryptedKey draw).Fits := by
    rw [Tlv.Fits, length_wrappedTlv]
    exact hlength
  have hwrapped : Recovery.encoded (p.wrappedTlv k.key.publicKey.info encryptedKey draw) = .ok _ :=
    mapError_eq_ok_iff.2 (encoded_eq_ok_iff.2 ⟨hfits, rfl⟩)
  rw [wrap, SoftToken.publicKey_signingKey hactive hk]
  simp only [ok_bind, haccepted, hpair, hencrypt, Except.mapError]
  exact hwrapped

/-- A token whose transport key decrypts the content key finds the octets of the key pair. -/
lemma unwrap_wrappedTlv {shortest : Nat} (hactive : t.active = true) (hk : t.keys .keyEncrypt = some k)
    (hdecrypt : k.key.decrypt encryptedKey = .ok draw.contentKey.octets)
    (hfits : (p.wrappedTlv k.key.publicKey.info encryptedKey draw).Fits) :
    unwrap (p.wrappedTlv k.key.publicKey.info encryptedKey draw).encode t.signingKey shortest =
      orFail "key pair: malformed value" (decode? p.tlv.encode shortest) := by
  have hcontentKey : contentKeyOf t.signingKey
      (transportTo k.key.publicKey.info.keyIdentifier encryptedKey) = .ok draw.contentKey :=
    contentKeyOf_eq_ok_iff.2 ⟨rfl, (SoftToken.decrypt_signingKey_eq_ok_iff hactive hk).2 hdecrypt⟩
  have hcontent : decryptContent draw.contentKey (envelope k.key.publicKey.info.keyIdentifier encryptedKey
      draw.first (Cbc.encrypt draw.contentKey draw.first p.tlv.encode)).content = .ok p.tlv.encode :=
    decryptContent_eq_ok_iff.2 ⟨Oid.data, draw.first, rfl⟩
  rw [unwrap, SoftToken.publicKey_signingKey hactive hk, ok_bind, wrappedTlv, envelopeOf_encode hfits,
    ok_bind, findSome?_withKey?_envelope]
  simp only [orFail, ok_bind, hcontentKey, hcontent]

/-- A token wraps every key pair that is not too long for its length to be read, and unwraps it to the same key
pair, whatever is drawn. The engine's own reader wants identifiers of three octets or more: it fails, and never
gives another key pair, if that of the algorithm is shorter. -/
theorem unwrap_wrap (p : KeyPair) (draw : Draw) (hactive : t.active = true)
    (hk : t.keys .keyEncrypt = some k)
    (haccepted : ∃ transport, Rsa.PublicKey.ofInfo k.key.publicKey.info = .ok transport)
    (hdecrypts : k.key.DecryptsOwn)
    (hlength : p.wrappedLength k.key.publicKey.size ≤ maxLength) :
    ∃ wrapped, p.wrap t.signingKey draw = .ok wrapped ∧ unwrap wrapped t.signingKey 0 = .ok p ∧
      unwrap wrapped t.signingKey =
        if 3 ≤ p.publicKey.algorithm.algorithm.octets.length then .ok p
        else .error (.recovery "key pair: malformed value") := by
  obtain ⟨transport, htransport⟩ := haccepted
  obtain rfl := Rsa.PublicKey.eq_of_ofInfo_info htransport
  -- The content key and its padding fit into the modulus, so the transport cannot fail.
  have hroom : draw.contentKey.octets.length + 11 ≤ k.key.publicKey.size := by
    have hsize := k.key.publicKey.le_size
    rw [draw.contentKey.length_octets, Aes.Key.size]
    omega
  obtain ⟨encryptedKey, hencrypt, hsize⟩ := Rsa.PublicKey.exists_encrypt draw.padding hroom
  have hdecrypt := hdecrypts _ _ _ hencrypt
  rw [← hsize] at hlength
  have hfits : (p.wrappedTlv k.key.publicKey.info encryptedKey draw).Fits := by
    rw [Tlv.Fits, length_wrappedTlv]
    exact hlength
  have hpair : p.tlv.Fits := fits_of_wrappedLength hlength
  refine ⟨_, wrap_eq hactive hk htransport hencrypt hlength, ?_, ?_⟩
  · rw [unwrap_wrappedTlv hactive hk hdecrypt hfits, (decode?_encode_iff hpair).2 ⟨rfl, Nat.zero_le _⟩]
    rfl
  · rw [unwrap_wrappedTlv hactive hk hdecrypt hfits]
    split
    · rename_i hidentifier
      have hread : decode? p.tlv.encode = some p := (decode?_encode_iff hpair).2 ⟨rfl, hidentifier⟩
      rw [hread]
      rfl
    · rename_i hidentifier
      have hnone : decode? p.tlv.encode = none := by
        refine Option.eq_none_iff_forall_not_mem.2 fun q hq => ?_
        exact hidentifier ((decode?_encode_iff hpair).1 hq).2
      rw [hnone]
      rfl

end KeyPair

namespace Sample

/-- A token with a transport key. -/
def transportToken : SoftToken where
  keys _ := some ⟨transportKey, .sha256WithRsa⟩

/-- A key pair with the public key of the small request. -/
def keyPair : KeyPair :=
  ⟨[1, 2, 3], request.publicKey⟩

/-- A content key, a first block and octets for padding. -/
def draw : Draw where
  contentKey := ⟨⟨⟨1, 2, 3, 4⟩, ⟨5, 6, 7, 8⟩, ⟨9, 10, 11, 12⟩, ⟨13, 14, 15, 16⟩⟩,
    ⟨⟨17, 18, 19, 20⟩, ⟨21, 22, 23, 24⟩, ⟨25, 26, 27, 28⟩, ⟨29, 30, 31, 32⟩⟩⟩
  first := ⟨⟨1, 0, 0, 0⟩, ⟨2, 0, 0, 0⟩, ⟨3, 0, 0, 0⟩, ⟨4, 0, 0, 0⟩⟩
  padding := [7, 0, 8]

end Sample

/-- The token wraps the key pair and unwraps it again. -/
theorem KeyPair.sample_unwrap_wrap :
    (∃ transport, Rsa.PublicKey.ofInfo Sample.transportKey.publicKey.info = .ok transport) ∧
    Sample.transportKey.DecryptsOwn ∧
    Sample.keyPair.wrappedLength Sample.transportKey.publicKey.size ≤ maxLength ∧
    ∃ wrapped, Sample.keyPair.wrap Sample.transportToken.signingKey Sample.draw = .ok wrapped ∧
      unwrap wrapped Sample.transportToken.signingKey = .ok Sample.keyPair := by
  have hok : (Rsa.PublicKey.ofInfo Sample.transportKey.publicKey.info).isOk = true := by decide +kernel
  have haccepted := exists_of_isOk hok
  have hlength : Sample.keyPair.wrappedLength Sample.transportKey.publicKey.size ≤ maxLength := by
    decide +kernel
  have hk : Sample.transportToken.keys .keyEncrypt = some ⟨Sample.transportKey, .sha256WithRsa⟩ := rfl
  obtain ⟨wrapped, hwrap, -, hunwrap⟩ := unwrap_wrap Sample.keyPair Sample.draw rfl hk haccepted
    Sample.decryptsOwn_transportKey hlength
  rw [if_pos (by decide +kernel)] at hunwrap
  exact ⟨haccepted, Sample.decryptsOwn_transportKey, hlength, wrapped, hwrap, hunwrap⟩

end CertAuthority
