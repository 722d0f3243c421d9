import CertAuthority.Proofs.Der.Ascending
import CertAuthority.Proofs.Der.Field
import CertAuthority.Proofs.Der.Length
import CertAuthority.Proofs.Error
import CertAuthority.Proofs.Recovery.Recipient
import CertAuthority.Recovery.Wrapped

/-!
# Envelopes are read as they were written

An envelope that was read is read again from its DER form, with its recipients in order
(`Envelope.IsReadable.envelopeOf_encode`), unless it is too long. So is the envelope of a key pair, with its
recipient and its encrypted content (`envelopeOf_encode`). How long that one is depends on the lengths of the
transported key and of the encrypted content only (`envelopeLength`).
-/

namespace CertAuthority.Recovery

open Der Cipher

/-- What may fail for a reason gives what is there. -/
lemma orFail_eq_ok_iff {α : Type} {details : String} {o : Option α} {a : α} :
    orFail details o = .ok a ↔ o = some a := by
  cases o <;> simp [orFail]

/-- An identifier of three octets or more is read again. -/
lemma toOid?_ofOid {oid : Oid} (h : 3 ≤ oid.octets.length) : (Tlv.ofOid oid).toOid? = some oid :=
  Tlv.toOid?_ofOid_iff.2 ⟨rfl, h⟩

namespace TypedContent

/-- A content with its type has a known tag, that of a sequence. -/
@[simp] lemma known_tlv (c : TypedContent) : c.tlv.Known :=
  rfl

/-- A content is read again with its type if the type is long enough and it is not too long. -/
lemma ofTlv?_tlv {c : TypedContent} (hf : c.tlv.Fits) (hk : c.content.Known)
    (htype : 3 ≤ c.type.octets.length) : ofTlv? c.tlv = some c := by
  have hcontent : (Tlv.explicit 0 c.content).Fits := hf.of_mem (by simp)
  have hinside : c.tlv.inside? Tag.sequence = some [.ofOid c.type, .explicit 0 c.content] := by
    apply Tlv.inside?_around hf
    intro t ht
    obtain rfl | ht := List.mem_cons.1 ht
    · exact Tlv.known_ofOid _
    · obtain rfl := List.mem_singleton.1 ht
      exact Tlv.known_explicit (by decide)
  have htake : Field.take 0 [.explicit 0 c.content] = (some (.explicit 0 c.content), []) :=
    Field.take_toList (some c.content) (fun _ => rfl) (by decide) (by decide) (by simp)
  simp only [ofTlv?, hinside, htake, toOid?_ofOid htype, Tlv.explicit?_explicit hcontent hk,
    Option.bind_eq_bind, Option.bind_some, List.isEmpty_nil, Bool.not_true, Bool.false_eq_true, if_false]
  rfl

end TypedContent

namespace EncryptedContent

variable {c : EncryptedContent}

/-- An encrypted content has a known tag, that of a sequence. -/
@[simp] lemma known_tlv (c : EncryptedContent) : c.tlv.Known :=
  rfl

/-- What the reader asks of an encrypted content. -/
structure IsReadable (c : EncryptedContent) : Prop where
  type : shortestOid ≤ c.type.octets.length
  algorithm : shortestOid ≤ c.algorithm.algorithm.octets.length

/-- An encrypted content is read again if it is readable and not too long. -/
lemma IsReadable.ofTlv?_tlv (h : c.IsReadable) (hf : c.tlv.Fits) : ofTlv? c.tlv = some c := by
  obtain ⟨type, algorithm, octets⟩ := c
  have hinside : (tlv ⟨type, algorithm, octets⟩).inside? Tag.sequence =
      some (.ofOid type :: algorithm.tlv :: octets.toList.map fun bs => ⟨Tag.context 0, bs⟩) := by
    apply Tlv.inside?_around hf
    intro t ht
    simp only [List.cons_append, List.nil_append, List.mem_cons, List.mem_map] at ht
    obtain rfl | rfl | ⟨bs, -, rfl⟩ := ht
    · exact Tlv.known_ofOid _
    · exact AlgorithmIdentifier.known_tlv _
    · exact Tlv.known_context (by decide)
  have htake : Field.take 0 (octets.toList.map fun bs => (⟨Tag.context 0, bs⟩ : Tlv)) =
      (octets.map fun bs => ⟨Tag.context 0, bs⟩, []) := by
    rw [← List.append_nil (octets.toList.map _)]
    exact Field.take_toList octets (fun _ => rfl) (by decide) (by decide) (by simp)
  have hread : AlgorithmIdentifier.ofTlv? algorithm.tlv = some algorithm :=
    (AlgorithmIdentifier.ofTlv?_tlv_iff (hf.of_mem (by simp))).2 ⟨rfl, h.algorithm⟩
  have hoctets : Field.optional (Tlv.content? (Tag.context 0))
      (octets.map fun bs => (⟨Tag.context 0, bs⟩ : Tlv)) = some octets := by
    cases octets <;> rfl
  simp only [ofTlv?, hinside, htake, toOid?_ofOid h.type, hread, hoctets, Option.bind_eq_bind,
    Option.bind_some, List.isEmpty_nil, Bool.not_true, Bool.false_eq_true, if_false]
  rfl

/-- An encrypted content that was read is readable. -/
lemma isReadable_of_ofTlv? {t : Tlv} (h : ofTlv? t = some c) : c.IsReadable := by
  obtain ⟨ts, -, h⟩ := Option.bind_eq_some_iff.1 h
  split at h
  · simp only [Option.bind_eq_bind, Option.bind_none, Option.bind_eq_some_iff, Option.ite_none_left_eq_some] at h
    obtain ⟨-, type, htype, algorithm, halgorithm, octets, -, h⟩ := h
    cases h
    exact ⟨Tlv.le_of_toOid? htype, AlgorithmIdentifier.le_of_ofTlv? halgorithm⟩
  · cases h

end EncryptedContent

/-! ### Envelopes -/

/-- Only an element with the right tag is looked into. -/
lemma tag_of_inside? {tag : UInt8} {t : Tlv} {ts : List Tlv} (h : t.inside? tag = some ts) : t.tag = tag := by
  rw [(Tlv.eq_of_inside? h).1]
  rfl

/-- A set that passes has the tag that was asked for. -/
lemma tag_of_isSetOf {tag : UInt8} {test : Tlv → Bool} {t : Tlv} (h : isSetOf tag test t = true) :
    t.tag = tag := by
  unfold isSetOf at h
  split at h
  · cases h
  · rename_i hinside
    exact tag_of_inside? hinside

/-- What holds the certificates of an originator stands under the first tag. -/
lemma tag_of_isOriginator {t : Tlv} (h : isOriginator t = true) : t.tag = Tag.contextConstructed 0 := by
  unfold isOriginator at h
  split at h
  · cases h
  · rename_i hinside
    exact tag_of_inside? hinside

namespace Envelope

variable {e : Envelope} {rs : List Recipient}

/-- What the reader asks of an envelope. -/
structure IsReadable (e : Envelope) : Prop where
  version_le : e.version ≤ 5
  originator : ∀ t ∈ e.originator, isOriginator t = true
  recipients : ∀ r ∈ e.recipients, r.IsReadable
  content : e.content.IsReadable
  attributes : ∀ t ∈ e.attributes, isSetOf (Tag.contextConstructed 1) isAttribute t = true

/-- Recipients that were read are readable and have been put in order. -/
lemma exists_of_recipientsOfTlv? {t : Tlv} (h : recipientsOfTlv? t = some rs) :
    (∀ r ∈ rs, r.IsReadable) ∧ ∃ rs', Tlv.ascendingBy? Recipient.tlv rs' = some rs := by
  obtain ⟨ts, -, h⟩ := Option.bind_eq_some_iff.1 h
  obtain ⟨rs', hread, h⟩ := Option.bind_eq_some_iff.1 h
  refine ⟨fun r hr => ?_, rs', h⟩
  obtain ⟨t, -, ht⟩ := exists_of_mem_mapM hread ((Tlv.perm_of_ascendingBy? h).mem_iff.1 hr)
  exact Recipient.isReadable_of_ofTlv? ht

/-- What was read is readable, and its recipients have been put in order. -/
lemma isReadable_of_ofTlv? {t : Tlv} (h : ofTlv? t = some e) :
    e.IsReadable ∧ ∃ rs, Tlv.ascendingBy? Recipient.tlv rs = some e.recipients := by
  obtain ⟨ts, -, h⟩ := Option.bind_eq_some_iff.1 h
  split at h
  · simp only [Option.bind_eq_bind, Option.bind_none, Option.ite_none_left_eq_some] at h
    obtain ⟨horiginator, h⟩ := h
    split at h
    · simp only [Option.bind_eq_some_iff, Option.ite_none_left_eq_some] at h
      obtain ⟨hattributes, -, version, hversion, recipients, hrecipients, content, hcontent, h⟩ := h
      cases h
      rw [Bool.not_eq_true', Bool.not_eq_false, Option.all_eq_true] at horiginator hattributes
      obtain ⟨hreadable, hordered⟩ := exists_of_recipientsOfTlv? hrecipients
      exact ⟨⟨le_of_version? hversion, horiginator, hreadable, EncryptedContent.isReadable_of_ofTlv? hcontent,
        hattributes⟩, hordered⟩
    · cases h
  · cases h

/-- Recipients in a set are read again and put in order. -/
lemma recipientsOfTlv?_set (h : ∀ r ∈ rs, r.IsReadable) (hf : (Tlv.set (rs.map Recipient.tlv)).Fits) :
    recipientsOfTlv? (.set (rs.map Recipient.tlv)) = Tlv.ascendingBy? Recipient.tlv rs := by
  have hinside : (Tlv.set (rs.map Recipient.tlv)).inside? Tag.set = some (rs.map Recipient.tlv) := by
    refine Tlv.inside?_around hf fun t ht => ?_
    obtain ⟨r, hr, rfl⟩ := List.mem_map.1 ht
    exact (h r hr).known_tlv
  have hread : (rs.map Recipient.tlv).mapM Recipient.ofTlv? = some rs := by
    refine (mapM_map_eq_some_iff (P := fun _ => True) fun r hr s => ?_).2 ⟨rfl, fun _ _ => trivial⟩
    rw [(h r hr).ofTlv?_tlv (hf.of_mem (List.mem_map_of_mem hr)), Option.some.injEq, and_true, eq_comm]
  simp only [recipientsOfTlv?, hinside, hread, Option.bind_eq_bind, Option.bind_some]

/-- An envelope is a sequence of its parts, two of which may be missing. -/
lemma tlv_eq (e : Envelope) : e.tlv = .sequence (.ofInt e.version :: (e.originator.toList ++
    .set (e.recipients.map Recipient.tlv) :: e.content.tlv :: (e.attributes.toList ++ []))) := by
  simp [tlv]

/-- The parts of a readable envelope have known tags. -/
lemma IsReadable.known_of_mem (h : e.IsReadable) : ∀ t ∈ Tlv.ofInt e.version :: (e.originator.toList ++
    .set (e.recipients.map Recipient.tlv) :: e.content.tlv :: (e.attributes.toList ++ [])), t.Known := by
  intro t ht
  simp only [List.append_nil, List.mem_cons, List.mem_append, Option.mem_toList] at ht
  obtain rfl | ht | rfl | rfl | ht := ht
  · exact Tlv.known_ofInt _
  · rw [Tlv.Known, tag_of_isOriginator (h.originator t ht)]
    decide
  · exact Tlv.known_set _
  · exact e.content.known_tlv
  · rw [Tlv.Known, tag_of_isSetOf (h.attributes t ht)]
    decide

/-- An envelope is read again, and its recipients are put in order. -/
lemma IsReadable.ofTlv?_tlv (h : e.IsReadable) (hf : e.tlv.Fits) :
    ofTlv? e.tlv = (Tlv.ascendingBy? Recipient.tlv e.recipients).map fun recipients => { e with recipients } := by
  have horiginator : ∀ t ∈ e.originator, t.tag = Tag.contextConstructed 0 :=
    fun t ht => tag_of_isOriginator (h.originator t ht)
  have hattributes : ∀ t ∈ e.attributes, t.tag = Tag.contextConstructed 1 :=
    fun t ht => tag_of_isSetOf (h.attributes t ht)
  rw [tlv_eq] at hf ⊢
  have hinside := Tlv.inside?_around hf h.known_of_mem
  have htakeOriginator : Field.take 0 (e.originator.toList ++
      .set (e.recipients.map Recipient.tlv) :: e.content.tlv :: (e.attributes.toList ++ [])) = (e.originator, _) :=
    Field.take_append horiginator (by decide) (by decide) fun t ht => by
      cases ht
      exact Field.isAfter_of_tag Tag.set rfl (by decide) (by decide)
  have htakeAttributes : Field.take 1 (e.attributes.toList ++ []) = (e.attributes, []) :=
    Field.take_append hattributes (by decide) (by decide) nofun
  have hversion : version? (.ofInt e.version) = some e.version := version?_ofInt h.version_le
  have hrecipients := recipientsOfTlv?_set h.recipients (hf.of_mem (by simp))
  have hcontent : EncryptedContent.ofTlv? e.content.tlv = some e.content :=
    h.content.ofTlv?_tlv (hf.of_mem (by simp))
  have hpassOriginator : e.originator.all isOriginator = true := (Option.all_eq_true _ _).2 h.originator
  have hpassAttributes : e.attributes.all (isSetOf (Tag.contextConstructed 1) isAttribute) = true :=
    (Option.all_eq_true _ _).2 h.attributes
  rw [Tlv.sequence, ofTlv?, hinside]
  simp only [Option.bind_eq_bind, Option.bind_some, htakeOriginator, htakeAttributes, hversion, hrecipients,
    hcontent, hpassOriginator, hpassAttributes, List.isEmpty_nil, Bool.not_true, Bool.false_eq_true, if_false]
  cases Tlv.ascendingBy? Recipient.tlv e.recipients <;> rfl

/-- The octets of an envelope are read as that envelope, with its recipients in order. -/
lemma IsReadable.envelopeOf_encode (h : e.IsReadable) (hf : (TypedContent.tlv ⟨Oid.envelopedData, e.tlv⟩).Fits)
    (hrs : Tlv.ascendingBy? Recipient.tlv e.recipients = some rs) :
    envelopeOf (TypedContent.tlv ⟨Oid.envelopedData, e.tlv⟩).encode = .ok { e with recipients := rs } := by
  have htype : 3 ≤ Oid.envelopedData.octets.length := by decide
  have htyped := TypedContent.ofTlv?_tlv hf rfl htype
  have hdecode := Tlv.decode?_encode ⟨TypedContent.known_tlv _, hf⟩
  have hexplicit : (Tlv.explicit 0 e.tlv).Fits := hf.of_mem (by simp)
  have henvelope := h.ofTlv?_tlv (hexplicit.of_mem List.mem_cons_self)
  rw [hrs, Option.map_some] at henvelope
  rw [envelopeOf, TypedContent.decode?, hdecode]
  simp only [Option.bind_eq_bind, Option.bind_some, htyped, orFail, ok_bind, henvelope]
  rfl

/-- An envelope that was read is readable, and its recipients have been put in order. -/
lemma isReadable_of_envelopeOf {wrapped : Octets} (h : envelopeOf wrapped = .ok e) :
    e.IsReadable ∧ ∃ rs, Tlv.ascendingBy? Recipient.tlv rs = some e.recipients := by
  obtain ⟨typed, -, h⟩ := bind_eq_ok_iff.1 h
  split at h
  · cases h
  · exact isReadable_of_ofTlv? (orFail_eq_ok_iff.1 h)

end Envelope

/-! ### The envelope of a key pair -/

/-- The one recipient of an envelope. -/
def transportTo (id encryptedKey : Octets) : KeyTransport :=
  ⟨v2, .key id, .withNull Oid.rsaEncryption, encryptedKey⟩

variable {id encryptedKey octets : Octets} {first : Block}

/-- The envelope of a key pair has a version, one recipient and the encrypted content. -/
lemma envelope_tlv : (envelope id encryptedKey first octets).tlv =
    .sequence [.ofInt v2, .set [(transportTo id encryptedKey).tlv],
      (envelope id encryptedKey first octets).content.tlv] :=
  rfl

/-- The recipient of the envelope of a key pair is readable. -/
lemma isReadable_transportTo : (transportTo id encryptedKey).IsReadable := by
  have hversion : v2 ≤ 5 := by decide
  have halgorithm : shortestOid ≤ Oid.rsaEncryption.octets.length := by decide
  exact ⟨hversion, trivial, halgorithm⟩

/-- The envelope of a key pair is readable. -/
lemma Envelope.isReadable_envelope : (envelope id encryptedKey first octets).IsReadable := by
  have hversion : v2 ≤ 5 := by decide
  have hdata : shortestOid ≤ Oid.data.octets.length := by decide
  have hcipher : shortestOid ≤ Oid.aes256Cbc.octets.length := by decide
  refine ⟨hversion, nofun, fun r hr => ?_, ⟨hdata, hcipher⟩, nofun⟩
  obtain rfl := List.mem_singleton.1 hr
  exact isReadable_transportTo

/-- The octets of a key pair in its envelope are read as that envelope. -/
lemma envelopeOf_encode
    (h : (TypedContent.tlv ⟨Oid.envelopedData, (envelope id encryptedKey first octets).tlv⟩).Fits) :
    envelopeOf (TypedContent.tlv ⟨Oid.envelopedData,
      (envelope id encryptedKey first octets).tlv⟩).encode =
      .ok (envelope id encryptedKey first octets) :=
  Envelope.isReadable_envelope.envelopeOf_encode h rfl

/-- How many octets there are in the element around the envelope of a key pair, for a transported key and an
encrypted content of given lengths. -/
def envelopeLength (encryptedKey octets : Nat) : Nat :=
  let recipients := Tlv.encodedLength (Tlv.encodedLength (40 + Tlv.encodedLength encryptedKey))
  let content := Tlv.encodedLength (42 + Tlv.encodedLength octets)
  11 + Tlv.encodedLength (Tlv.encodedLength (3 + recipients + content))

/-- An envelope is at least as long as the encrypted content in it. -/
lemma le_envelopeLength (encryptedKey octets : Nat) : octets ≤ envelopeLength encryptedKey octets := by
  have hoctets := Tlv.le_encodedLength octets
  have hcontent := Tlv.le_encodedLength (42 + Tlv.encodedLength octets)
  have henvelope := Tlv.le_encodedLength (3 + Tlv.encodedLength (Tlv.encodedLength
    (40 + Tlv.encodedLength encryptedKey)) + Tlv.encodedLength (42 + Tlv.encodedLength octets))
  have hexplicit := Tlv.le_encodedLength (Tlv.encodedLength (3 + Tlv.encodedLength (Tlv.encodedLength
    (40 + Tlv.encodedLength encryptedKey)) + Tlv.encodedLength (42 + Tlv.encodedLength octets)))
  simp only [envelopeLength]
  omega

/-- What stands around the transported key has forty octets. -/
lemma length_transportTo (hid : id.length = 20) :
    (transportTo id encryptedKey).tlv.content.length = 40 + Tlv.encodedLength encryptedKey.length := by
  have hversion : (Tlv.ofInt v2).encode.length = 3 := rfl
  have hname : (RecipientId.key id).tlv.encode.length = 22 := by
    rw [Tlv.length_encode]
    show Tlv.encodedLength id.length = 22
    rw [hid]
    rfl
  have halgorithm : (AlgorithmIdentifier.withNull Oid.rsaEncryption).tlv.encode.length = 15 := by decide
  have hkey : (Tlv.ofOctets encryptedKey).encode.length = Tlv.encodedLength encryptedKey.length :=
    Tlv.length_encode _
  simp only [transportTo, KeyTransport.tlv, Tlv.sequence, Tlv.content_around, List.flatMap_cons,
    List.flatMap_nil, List.length_append, List.length_nil, hversion, hname, halgorithm, hkey]
  omega

/-- What stands around the encrypted octets has 42 octets. -/
lemma length_encryptedContent :
    (envelope id encryptedKey first octets).content.tlv.content.length =
      42 + Tlv.encodedLength octets.length := by
  have htype : (Tlv.ofOid Oid.data).encode.length = 11 := rfl
  have halgorithm : (AlgorithmIdentifier.tlv
      ⟨Oid.aes256Cbc, some ⟨.ofOctets first.octets, rfl⟩⟩).encode.length = 31 := rfl
  have hoctets : (Tlv.encode ⟨Tag.context 0, octets⟩).length = Tlv.encodedLength octets.length :=
    Tlv.length_encode _
  simp only [envelope, EncryptedContent.tlv, Tlv.sequence, Tlv.content_around, Option.toList_some,
    List.map_cons, List.map_nil, List.cons_append, List.nil_append, List.flatMap_cons, List.flatMap_nil,
    List.length_append, List.length_nil, htype, halgorithm, hoctets]
  omega

/-- The length of the envelope of a key pair depends on those of the transported key and the encrypted content only. -/
lemma length_envelope (hid : id.length = 20) :
    (TypedContent.tlv ⟨Oid.envelopedData, (envelope id encryptedKey first octets).tlv⟩).content.length =
      envelopeLength encryptedKey.length octets.length := by
  have hversion : (Tlv.ofInt v2).encode.length = 3 := rfl
  have htype : (Tlv.ofOid Oid.envelopedData).encode.length = 11 := rfl
  have hrecipients : (Tlv.set [(transportTo id encryptedKey).tlv]).encode.length =
      Tlv.encodedLength (Tlv.encodedLength (40 + Tlv.encodedLength encryptedKey.length)) := by
    simp only [Tlv.length_encode, Tlv.set, Tlv.content_around, List.flatMap_cons, List.flatMap_nil,
      List.append_nil, length_transportTo hid]
  have hcontent : (envelope id encryptedKey first octets).content.tlv.encode.length =
      Tlv.encodedLength (42 + Tlv.encodedLength octets.length) := by
    rw [Tlv.length_encode, length_encryptedContent]
  have henvelope : (envelope id encryptedKey first octets).tlv.content.length = 3 +
      Tlv.encodedLength (Tlv.encodedLength (40 + Tlv.encodedLength encryptedKey.length)) +
      Tlv.encodedLength (42 + Tlv.encodedLength octets.length) := by
    simp only [envelope_tlv, Tlv.sequence, Tlv.content_around, List.flatMap_cons, List.flatMap_nil,
      List.length_append, List.length_nil, hversion, hrecipients, hcontent, Nat.add_zero, Nat.add_assoc]
  have hexplicit : (Tlv.explicit 0 (envelope id encryptedKey first octets).tlv).content.length =
      Tlv.encodedLength (envelope id encryptedKey first octets).tlv.content.length := by
    simp only [Tlv.explicit, Tlv.content_around, List.flatMap_cons, List.flatMap_nil, List.append_nil,
      Tlv.length_encode]
  simp only [TypedContent.tlv, Tlv.sequence, Tlv.content_around, List.flatMap_cons, List.flatMap_nil,
    List.length_append, List.length_nil, htype, Tlv.length_encode, hexplicit, henvelope, envelopeLength,
    Nat.add_zero]

end CertAuthority.Recovery
