import CertAuthority.Proofs.Cipher.Decrypted
import CertAuthority.Proofs.Recovery.Wrapped

/-!
# Altered wrapped key pairs

What is unwrapped depends on three parts of a wrapped key pair only: the transported content key, the block
before the first one and the encrypted octets (`KeyPair.unwrap_eq_ok_iff`). Nothing ties them to the key pair
that was wrapped, as the octets are encrypted but not authenticated. A key pair comes out exactly if its octets
are what is encrypted. So an alteration of anything else is found out or does no harm, but
another block before the first one changes the first octets of the key pair, which are those of the private
key, as one likes (`KeyPair.unwrap_altered`).
-/

namespace CertAuthority

open Der Cipher Recovery

/-! ### Octets in place of others -/

/-- Elements whose octets are the same but for a part of one length are so as parts of others. -/
lemma Der.Tlv.exists_encode_around {α : Type} {x : α → Octets} {t : α → Tlv} {n : Nat} (tag : UInt8)
    (ts us : List Tlv) (hx : ∀ a, (x a).length = n)
    (h : ∃ front back, ∀ a, (t a).encode = front ++ (x a ++ back)) :
    ∃ front back, ∀ a, (around tag (ts ++ t a :: us)).encode = front ++ (x a ++ back) := by
  obtain ⟨front, back, h⟩ := h
  have hlength : ∀ a, (around tag (ts ++ t a :: us)).content.length =
      (ts.flatMap encode).length + (front.length + n + back.length) + (us.flatMap encode).length := by
    intro a
    simp only [content_around, List.flatMap_append, List.flatMap_cons, h, List.length_append, hx]
    omega
  refine ⟨tag :: lengthOctets ((ts.flatMap encode).length + (front.length + n + back.length) +
    (us.flatMap encode).length) ++ ts.flatMap encode ++ front, back ++ us.flatMap encode, fun a => ?_⟩
  rw [encode, hlength, content_around, List.flatMap_append, List.flatMap_cons, h]
  simp

/-! ### Key pairs that were read -/

namespace KeyPair

/-- A key pair that was read has the form that it was read from. -/
lemma eq_tlv_of_ofTlv? {t : Tlv} {p : KeyPair} {shortest : Nat} (h : ofTlv? t shortest = some p) : t = p.tlv := by
  obtain ⟨ts, hinside, h⟩ := Option.bind_eq_some_iff.1 h
  rw [(Tlv.eq_of_inside? hinside).1]
  split at h
  · obtain ⟨privateKey, hprivate, h⟩ := Option.bind_eq_some_iff.1 h
    obtain ⟨publicKey, hpublic, h⟩ := Option.bind_eq_some_iff.1 h
    cases h
    rw [Tlv.eq_ofOctets_of_toOctets? hprivate, PublicKeyInfo.eq_tlv_of_ofTlv? hpublic]
    rfl
  · cases h

/-- A key pair that is read again from its octets. -/
def IsReadable (p : KeyPair) : Prop :=
  decode? p.tlv.encode = some p

/-- A key pair is readable exactly if its form is not too long and the identifier of its algorithm is long enough. -/
lemma isReadable_iff {p : KeyPair} :
    p.IsReadable ↔ p.tlv.Fits ∧ shortestOid ≤ p.publicKey.algorithm.algorithm.octets.length := by
  constructor
  · intro h
    obtain ⟨t, ht, -⟩ := Option.bind_eq_some_iff.1 h
    have hfits := Tlv.fits_of_decode?_encode ht
    exact ⟨hfits, ((decode?_encode_iff hfits).1 h).2⟩
  · exact fun ⟨hfits, hidentifier⟩ => (decode?_encode_iff hfits).2 ⟨rfl, hidentifier⟩

/-- Octets are read as a key pair exactly if they are its octets and it can be read. -/
lemma decode?_eq_some_iff {bs : Octets} {p : KeyPair} :
    decode? bs = some p ↔ bs = p.tlv.encode ∧ p.IsReadable := by
  constructor
  · intro h
    obtain ⟨t, ht, hp⟩ := Option.bind_eq_some_iff.1 h
    have hbs : bs = p.tlv.encode := by
      rw [(Tlv.eq_of_decode? ht).1, eq_tlv_of_ofTlv? hp]
    subst hbs
    exact ⟨rfl, h⟩
  · rintro ⟨rfl, h⟩
    exact h

/-- The octets of a key pair that can be read are those of no other. -/
lemma IsReadable.eq_of_encode {p q : KeyPair} (hp : p.tlv.Fits) (hq : q.IsReadable)
    (h : q.tlv.encode = p.tlv.encode) : q = p := by
  rw [IsReadable, h] at hq
  exact ((decode?_encode_iff hp).1 hq).1

end KeyPair

/-! ### What is unwrapped -/

namespace Recovery

/-- The parts of a wrapped key pair on which it depends what is unwrapped. -/
structure Sealed where
  encryptedKey : Octets
  /-- The block before the first one. -/
  first : Block
  octets : Octets

/-- The octets of an envelope with these parts for the recipient with an identifier. -/
inductive Holds (id wrapped : Octets) : Sealed → Prop where
  | intro {e : Envelope} {recipient : KeyTransport} {type : Oid} {first : Block} {octets : Octets} :
    envelopeOf wrapped = .ok e →
    e.recipients.findSome? (Recipient.withKey? id) = some recipient →
    recipient.algorithm.algorithm = Oid.rsaEncryption →
    e.content = encryptedContent type first octets →
    Holds id wrapped ⟨recipient.encryptedKey, first, octets⟩

/-- The first block and the encrypted octets are told apart by the form of the content. -/
lemma encryptedContent_inj {type type' : Oid} {first first' : Block} {octets octets' : Octets}
    (h : encryptedContent type first octets = encryptedContent type' first' octets') :
    first = first' ∧ octets = octets' := by
  simp only [encryptedContent, EncryptedContent.mk.injEq, AlgorithmIdentifier.mk.injEq, Option.some.injEq,
    Any.ofOctets, Any.mk.injEq, Tlv.ofOctets, Tlv.mk.injEq, true_and] at h
  obtain ⟨-, hfirst, hoctets⟩ := h
  have hblock : first = first' :=
    (Octets.written_inj Block.ofOctets? (Block.ofOctets?_octets first) (Block.ofOctets?_octets first')).1 hfirst
  exact ⟨hblock, hoctets⟩

/-- An envelope holds one key pair in one way. -/
lemma Holds.unique {id wrapped : Octets} {s s' : Sealed} (h : Holds id wrapped s) (h' : Holds id wrapped s') :
    s = s' := by
  obtain ⟨he, hrecipient, -, hcontent⟩ := h
  obtain ⟨he', hrecipient', -, hcontent'⟩ := h'
  cases he.symm.trans he'
  cases hrecipient.symm.trans hrecipient'
  obtain ⟨rfl, rfl⟩ := encryptedContent_inj (hcontent.symm.trans hcontent')
  rfl

namespace Sealed

variable {s : Sealed} {id : Octets}

/-- The element of an envelope with these parts for one recipient. -/
def tlv (s : Sealed) (id : Octets) : Tlv :=
  TypedContent.tlv ⟨Oid.envelopedData, (envelope id s.encryptedKey s.first s.octets).tlv⟩

/-- The envelope that is made of parts holds them. -/
lemma holds_encode (h : (s.tlv id).Fits) : Holds id (s.tlv id).encode s :=
  @Holds.intro _ _ _ (transportTo id s.encryptedKey) Oid.data _ _ (envelopeOf_encode h)
    findSome?_withKey?_envelope rfl rfl

/-- An envelope is as long with any other block before the first one. -/
lemma fits_with_first (hid : id.length = 20) (h : (s.tlv id).Fits) (first : Block) :
    (tlv { s with first } id).Fits := by
  rw [Tlv.Fits, tlv, length_envelope hid] at h ⊢
  exact h

/-- The block before the first one stands in an envelope as it is, and nothing else depends on it. -/
lemma exists_encode_tlv (s : Sealed) (id : Octets) :
    ∃ front back, ∀ first, (tlv { s with first } id).encode = front ++ (first.octets ++ back) := by
  have hlength : ∀ first : Block, first.octets.length = Block.size := Block.length_octets
  have hparameters : ∃ front back, ∀ first : Block,
      (Tlv.ofOctets first.octets).encode = front ++ (first.octets ++ back) :=
    ⟨[4, 16], [], fun first => by rw [List.append_nil]; rfl⟩
  have halgorithm := Tlv.exists_encode_around Tag.sequence [.ofOid Oid.aes256Cbc] [] hlength hparameters
  have hcontent := Tlv.exists_encode_around Tag.sequence [.ofOid Oid.data] [⟨Tag.context 0, s.octets⟩] hlength
    halgorithm
  have henvelope := Tlv.exists_encode_around Tag.sequence
    [.ofInt v2, .set [(transportTo id s.encryptedKey).tlv]] [] hlength hcontent
  have hexplicit := Tlv.exists_encode_around (Tag.contextConstructed 0) [] [] hlength henvelope
  exact Tlv.exists_encode_around Tag.sequence [.ofOid Oid.envelopedData] [] hlength hexplicit

end Sealed

end Recovery

namespace KeyPair

variable {p q : KeyPair} {t : SoftToken} {k : SoftKey} {draw : Draw} {wrapped other : Octets}

/-- A key pair is unwrapped exactly if its octets are encrypted in what is unwrapped, under the content key for the
token. -/
lemma unwrap_eq_ok_iff (hactive : t.active = true) (hk : t.keys .keyEncrypt = some k) :
    unwrap other t.signingKey = .ok q ↔ q.IsReadable ∧ ∃ s contentKey,
      Holds k.key.publicKey.info.keyIdentifier other s ∧
        k.key.decrypt s.encryptedKey = .ok contentKey.octets ∧
        s.octets = Cbc.encrypt contentKey s.first q.tlv.encode := by
  rw [unwrap, SoftToken.publicKey_signingKey hactive hk, ok_bind]
  simp only [bind_eq_ok_iff, orFail_eq_ok_iff, contentKeyOf_eq_ok_iff, decryptContent_eq_ok_iff,
    decode?_eq_some_iff, SoftToken.decrypt_signingKey_eq_ok_iff hactive hk]
  constructor
  · rintro ⟨e, he, recipient, hrecipient, contentKey, ⟨halgorithm, hdecrypt⟩, _,
      ⟨type, first, hcontent⟩, rfl, hq⟩
    exact ⟨hq, _, contentKey, .intro he hrecipient halgorithm hcontent, hdecrypt, rfl⟩
  · rintro ⟨hq, _, contentKey, @⟨e, recipient, type, first, octets, he, hrecipient, halgorithm, hcontent⟩,
      hdecrypt, hoctets⟩
    dsimp only at hdecrypt hoctets
    rw [hoctets] at hcontent
    exact ⟨e, he, recipient, hrecipient, contentKey, ⟨halgorithm, hdecrypt⟩, _, ⟨type, first, hcontent⟩, rfl, hq⟩

variable {encryptedKey : Octets}

/-- The parts of a wrapped key pair. -/
def sealed (p : KeyPair) (encryptedKey : Octets) (draw : Draw) : Sealed :=
  ⟨encryptedKey, draw.first, Cbc.encrypt draw.contentKey draw.first p.tlv.encode⟩

/-- What a token wraps is the element of the key pair in its envelope. -/
lemma exists_of_wrap (hactive : t.active = true) (hk : t.keys .keyEncrypt = some k)
    (h : p.wrap t.signingKey draw = .ok wrapped) :
    ∃ encryptedKey, k.key.publicKey.encrypt draw.padding draw.contentKey.octets = .ok encryptedKey ∧
      p.tlv.Fits ∧ ((p.sealed encryptedKey draw).tlv k.key.publicKey.info.keyIdentifier).Fits ∧
      wrapped = ((p.sealed encryptedKey draw).tlv k.key.publicKey.info.keyIdentifier).encode := by
  rw [wrap, SoftToken.publicKey_signingKey hactive hk, ok_bind] at h
  simp only [bind_eq_ok_iff, mapError_eq_ok_iff, Recovery.encoded, encoded_eq_ok_iff] at h
  obtain ⟨transport, htransport, _, ⟨hpair, rfl⟩, encryptedKey, hencrypt, hfits, hwrapped⟩ := h
  -- The transport key that the token reports is read back as its own public key.
  obtain rfl := Rsa.PublicKey.eq_of_ofInfo_info htransport
  exact ⟨encryptedKey, hencrypt, hpair, hfits, hwrapped⟩

/-- The key pair with another first octet of its private key. -/
def flipped (p : KeyPair) : KeyPair :=
  { p with privateKey := p.privateKey.modifyHead (· ^^^ 1) }

/-- The first octet of the private key stands in the first block of the octets of a key pair. -/
lemma exists_encode_tlv {bs : Octets} {publicKey : PublicKeyInfo} {b : UInt8}
    (h : (tlv ⟨b :: bs, publicKey⟩).Fits) : ∃ front back, front.length < Block.size ∧
      ∀ c, (tlv ⟨c :: bs, publicKey⟩).encode = front ++ c :: back := by
  have hcontent : ∀ c, (tlv ⟨c :: bs, publicKey⟩).content =
      Tag.octetString :: lengthOctets (bs.length + 1) ++ c :: (bs ++ publicKey.encode) := by
    intro c
    simp [tlv, Tlv.encode, Tlv.sequence, Tlv.ofOctets, PublicKeyInfo.encode]
  have hprivate : (Tlv.ofOctets (b :: bs)).Fits := h.of_mem (by simp)
  -- In front of the private key stand two headers, of at most six octets each.
  have hwhole := length_lengthOctets_le h
  have hinside := length_lengthOctets_le hprivate
  refine ⟨Tag.sequence :: lengthOctets (tlv ⟨b :: bs, publicKey⟩).content.length ++
    Tag.octetString :: lengthOctets (bs.length + 1), bs ++ publicKey.encode, ?_, fun c => ?_⟩
  · simp only [Tlv.ofOctets, List.length_cons] at hinside
    rw [List.length_append, List.length_cons, List.length_cons, Block.size]
    omega
  · have hlength : (tlv ⟨c :: bs, publicKey⟩).content.length = (tlv ⟨b :: bs, publicKey⟩).content.length := by
      simp only [hcontent, List.length_append, List.length_cons]
    rw [Tlv.encode, hlength, hcontent c]
    simp [tlv, Tlv.sequence]

/-- Flipping a bit changes a private key that is not empty. -/
lemma flipped_ne (h : p.privateKey ≠ []) : p.flipped ≠ p := by
  obtain ⟨privateKey, publicKey⟩ := p
  obtain ⟨b, bs, rfl⟩ := List.exists_cons_of_ne_nil h
  intro heq
  have hb : b ^^^ 1 = b := (List.cons.inj (congrArg KeyPair.privateKey heq)).1
  have hone := Aes.xor_xor_cancel b 1
  rw [hb, UInt8.xor_self] at hone
  cases hone

/-- A key pair with a flipped bit is as readable as before, as its form has the same length. -/
lemma isReadable_flipped (h : p.IsReadable) : p.flipped.IsReadable := by
  obtain ⟨hfits, hidentifier⟩ := isReadable_iff.1 h
  refine isReadable_iff.2 ⟨?_, hidentifier⟩
  have hlength : p.flipped.tlv.content.length = p.tlv.content.length := by
    simp [tlv, Tlv.sequence, Tlv.length_encode, Tlv.ofOctets, flipped]
  rwa [Tlv.Fits, hlength]

/-- With another block before the first one, a wrapped key pair is a wrapped form of another key pair. -/
lemma exists_encrypt_flipped (hp : p.tlv.Fits) (hne : p.privateKey ≠ []) (key : Aes.Key) (first : Block) :
    ∃ first', Cbc.encrypt key first p.tlv.encode = Cbc.encrypt key first' p.flipped.tlv.encode := by
  obtain ⟨privateKey, publicKey⟩ := p
  obtain ⟨b, bs, rfl⟩ := List.exists_cons_of_ne_nil hne
  obtain ⟨front, back, hfront, hencode⟩ := exists_encode_tlv hp
  rw [flipped, hencode b]
  show ∃ first', _ = Cbc.encrypt key first' (tlv ⟨(b ^^^ 1) :: bs, publicKey⟩).encode
  rw [hencode]
  exact Cbc.exists_encrypt_eq_encrypt key first b (b ^^^ 1) back hfront

/-- With its encrypted octets as they are, a key pair comes out as those that are encrypted alike. -/
lemma unwrap_eq_ok_iff_of_holds (hactive : t.active = true) (hk : t.keys .keyEncrypt = some k)
    (hdecrypt : k.key.decrypt encryptedKey = .ok draw.contentKey.octets) {first : Block}
    (h : Holds k.key.publicKey.info.keyIdentifier other { p.sealed encryptedKey draw with first }) :
    unwrap other t.signingKey = .ok q ↔ q.IsReadable ∧
      Cbc.encrypt draw.contentKey draw.first p.tlv.encode = Cbc.encrypt draw.contentKey first q.tlv.encode := by
  rw [unwrap_eq_ok_iff hactive hk]
  constructor
  · rintro ⟨hq, s, contentKey, hs, hcontentKey, hoctets⟩
    obtain rfl := hs.unique h
    have hsame := hcontentKey.symm.trans hdecrypt
    rw [Except.ok.injEq, Aes.Key.octets_inj] at hsame
    rw [hsame] at hoctets
    exact ⟨hq, hoctets⟩
  · exact fun ⟨hq, hoctets⟩ => ⟨hq, _, draw.contentKey, h, hdecrypt, hoctets⟩

/-- The drawn block stands in what a token wraps as it is. With another one in its place a key pair comes out
as those that are encrypted alike. -/
lemma exists_unwrap_with_first (hactive : t.active = true) (hk : t.keys .keyEncrypt = some k)
    (hdecrypt : k.key.decrypt encryptedKey = .ok draw.contentKey.octets)
    (hfits : ((p.sealed encryptedKey draw).tlv k.key.publicKey.info.keyIdentifier).Fits) :
    ∃ front back, ((p.sealed encryptedKey draw).tlv k.key.publicKey.info.keyIdentifier).encode =
        front ++ (draw.first.octets ++ back) ∧
      ∀ (first : Block) q, unwrap (front ++ (first.octets ++ back)) t.signingKey = .ok q ↔
        q.IsReadable ∧ Cbc.encrypt draw.contentKey draw.first p.tlv.encode =
          Cbc.encrypt draw.contentKey first q.tlv.encode := by
  have hid := k.key.publicKey.info.length_keyIdentifier
  obtain ⟨front, back, hencode⟩ :=
    (p.sealed encryptedKey draw).exists_encode_tlv k.key.publicKey.info.keyIdentifier
  have hself : { p.sealed encryptedKey draw with first := draw.first } = p.sealed encryptedKey draw := rfl
  refine ⟨front, back, ?_, fun first q => ?_⟩
  · rw [← hself, hencode]
  rw [← hencode]
  have hholds := Sealed.holds_encode (Sealed.fits_with_first hid hfits first)
  exact unwrap_eq_ok_iff_of_holds hactive hk hdecrypt hholds

/-- What may come out of octets in place of those that a token has wrapped: exactly the key pairs whose octets
are encrypted in them, which is the one that was wrapped if its three parts are the same. With another block
before the first one the front of its octets is changed by the difference, and there is always such a block
with which another private key comes out. -/
theorem unwrap_altered (hactive : t.active = true) (hk : t.keys .keyEncrypt = some k)
    (hdecrypts : k.key.DecryptsOwn) (hwrap : p.wrap t.signingKey draw = .ok wrapped) :
    ∃ s front back, Holds k.key.publicKey.info.keyIdentifier wrapped s ∧
      wrapped = front ++ (s.first.octets ++ back) ∧
      (∀ other q, unwrap other t.signingKey = .ok q ↔ q.IsReadable ∧ ∃ s' contentKey,
        Holds k.key.publicKey.info.keyIdentifier other s' ∧
          k.key.decrypt s'.encryptedKey = .ok contentKey.octets ∧
          s'.octets = Cbc.encrypt contentKey s'.first q.tlv.encode) ∧
      (∀ other q, Holds k.key.publicKey.info.keyIdentifier other s →
        unwrap other t.signingKey = .ok q → q = p) ∧
      (∀ (first : Block) q, unwrap (front ++ (first.octets ++ back)) t.signingKey = .ok q ↔
        q.IsReadable ∧ Cbc.pad q.tlv.encode = (s.first.xor first).addTo (Cbc.pad p.tlv.encode)) ∧
      (p.IsReadable → p.privateKey ≠ [] → p.flipped ≠ p ∧ ∃ first : Block,
        unwrap (front ++ (first.octets ++ back)) t.signingKey = .ok p.flipped) := by
  obtain ⟨encryptedKey, hencrypt, hp, hfits, rfl⟩ := exists_of_wrap hactive hk hwrap
  have hdecrypt := hdecrypts _ _ _ hencrypt
  obtain ⟨front, back, hwrapped, hfirst⟩ := exists_unwrap_with_first hactive hk hdecrypt hfits
  refine ⟨p.sealed encryptedKey draw, front, back, Sealed.holds_encode hfits, hwrapped,
    fun other q => unwrap_eq_ok_iff hactive hk, ?_, ?_, ?_⟩
  -- Both hold the same encrypted key, and what one content key encrypts it encrypts injectively.
  · intro other q hholds hunwrap
    obtain ⟨hq, hsame⟩ := (unwrap_eq_ok_iff_of_holds hactive hk hdecrypt hholds).1 hunwrap
    exact hq.eq_of_encode hp (Cbc.encrypt_inj.1 hsame).symm
  · intro first q
    rw [hfirst, Cbc.encrypt_eq_encrypt_iff]
    rfl
  · intro hread hne
    obtain ⟨first, hsame⟩ := exists_encrypt_flipped hp hne draw.contentKey draw.first
    exact ⟨flipped_ne hne, first, (hfirst first _).2 ⟨isReadable_flipped hread, hsame⟩⟩

end KeyPair

namespace Sample

/-- The key pair can be wrapped. -/
lemma isOk_wrap : (keyPair.wrap transportToken.signingKey draw).isOk = true := by
  decide +kernel

/-- The key pair is readable. -/
lemma isReadable_keyPair : keyPair.IsReadable := by
  unfold KeyPair.IsReadable
  decide +kernel

/-- The drawn block with one bit flipped. -/
def flippedFirst : Block :=
  ⟨⟨1, 0, 0, 0⟩, ⟨3, 0, 0, 0⟩, ⟨3, 0, 0, 0⟩, ⟨4, 0, 0, 0⟩⟩

end Sample

namespace KeyPair

/-- The token opens octets other than those that it has wrapped to another private key. -/
theorem sample_unwrap_altered : Sample.transportKey.DecryptsOwn ∧ ∃ wrapped other,
    Sample.keyPair.wrap Sample.transportToken.signingKey Sample.draw = .ok wrapped ∧
      unwrap other Sample.transportToken.signingKey = .ok Sample.keyPair.flipped ∧
      Sample.keyPair.flipped ≠ Sample.keyPair := by
  obtain ⟨wrapped, hwrap⟩ := exists_of_isOk Sample.isOk_wrap
  have hk : Sample.transportToken.keys .keyEncrypt = some ⟨Sample.transportKey, .sha256WithRsa⟩ := rfl
  obtain ⟨s, front, back, -, -, -, -, -, hflipped⟩ := unwrap_altered rfl hk Sample.decryptsOwn_transportKey hwrap
  obtain ⟨hne, first, hunwrap⟩ := hflipped Sample.isReadable_keyPair (by decide)
  exact ⟨Sample.decryptsOwn_transportKey, wrapped, _, hwrap, hunwrap, hne⟩

/-- One bit of the drawn block is flipped in the wrapped key pair, and the token opens it to another private
key. -/
theorem exists_unwrap_flipped_ne : Sample.flippedFirst.octets ≠ Sample.draw.first.octets ∧ ∃ front back,
    Sample.keyPair.wrap Sample.transportToken.signingKey Sample.draw =
        .ok (front ++ (Sample.draw.first.octets ++ back)) ∧
      unwrap (front ++ (Sample.flippedFirst.octets ++ back)) Sample.transportToken.signingKey =
        .ok ⟨[0, 2, 3], Sample.keyPair.publicKey⟩ ∧
      Sample.keyPair.privateKey = [1, 2, 3] := by
  obtain ⟨wrapped, hwrap⟩ := exists_of_isOk Sample.isOk_wrap
  have hk : Sample.transportToken.keys .keyEncrypt = some ⟨Sample.transportKey, .sha256WithRsa⟩ := rfl
  obtain ⟨encryptedKey, hencrypt, -, hfits, rfl⟩ := exists_of_wrap rfl hk hwrap
  have hdecrypt := Sample.decryptsOwn_transportKey _ _ _ hencrypt
  obtain ⟨front, back, hwrapped, hfirst⟩ := exists_unwrap_with_first rfl hk hdecrypt hfits
  have hread : IsReadable ⟨[0, 2, 3], Sample.keyPair.publicKey⟩ := by
    unfold IsReadable
    decide +kernel
  have hsame : Cbc.encrypt Sample.draw.contentKey Sample.draw.first Sample.keyPair.tlv.encode =
      Cbc.encrypt Sample.draw.contentKey Sample.flippedFirst
        (tlv ⟨[0, 2, 3], Sample.keyPair.publicKey⟩).encode :=
    Cbc.encrypt_eq_encrypt_iff.2 (by decide +kernel)
  rw [hwrapped] at hwrap
  exact ⟨by decide, front, back, hwrap, (hfirst _ _).2 ⟨hread, hsame⟩, rfl⟩

end KeyPair

end CertAuthority
