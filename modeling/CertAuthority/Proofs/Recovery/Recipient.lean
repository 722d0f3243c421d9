import CertAuthority.Proofs.Certificate.Parts
import CertAuthority.Proofs.Der.Integer
import CertAuthority.Recovery.Recipient

/-!
# Recipients are read as they were written

The reader asks for small versions and for identifiers that are not too short, and looks at the shape of the
recipients that it has no use for (`Recipient.IsReadable`). What it has read meets this
(`Recipient.isReadable_of_ofTlv?`), and what meets it is read again (`Recipient.IsReadable.ofTlv?_tlv`). So a
recipient stays readable where its DER form differs from what was read, as sets are put in order.
-/

namespace CertAuthority.Recovery

open Der

/-! ### Versions -/

/-- The versions up to five are read again. -/
lemma version?_ofInt {n : Nat} (h : n ≤ 5) : version? (.ofInt n) = some n := by
  rw [version?, Tlv.toNat?_ofInt]
  exact if_pos h

/-- No version above five is read. -/
lemma le_of_version? {t : Tlv} {n : Nat} (h : version? t = some n) : n ≤ 5 := by
  obtain ⟨m, -, h⟩ := Option.bind_eq_some_iff.1 h
  obtain ⟨hle, h⟩ := Option.ite_none_right_eq_some.1 h
  cases h
  exact hle

/-! ### What tells recipients apart -/

namespace RecipientId

variable {i : RecipientId}

/-- What the reader asks of the issuer and the number of a certificate. -/
def IsReadable : RecipientId → Prop
  | certificate issuer serial =>
    (∀ o ∈ issuer.identifiers, shortestOid ≤ o.octets.length) ∧ serial.Readable
  | key _ => True

/-- Both ways to tell a recipient have known tags. -/
@[simp] lemma known_tlv (i : RecipientId) : i.tlv.Known := by
  cases i with
  | certificate issuer serial => exact Tlv.known_sequence _
  | key id => exact Tlv.known_context (by decide)

/-- What tells a recipient is read again if it is readable and not too long. -/
lemma IsReadable.ofTlv?_tlv (h : i.IsReadable) (hf : i.tlv.Fits) : ofTlv? i.tlv = some i := by
  cases i with
  | certificate issuer serial =>
    have hinside : (tlv (certificate issuer serial)).inside? Tag.sequence = some [issuer.tlv, serial.tlv] :=
      Tlv.inside?_around hf (by simp)
    have htag : (tlv (certificate issuer serial)).tag ≠ Tag.context 0 :=
      fun heq => absurd (show Tag.sequence = Tag.context 0 from heq) (by decide)
    have hissuer : Name.ofTlv? issuer.tlv = some issuer :=
      (Name.ofTlv?_tlv_iff (hf.of_mem (by simp))).2 ⟨rfl, h.1⟩
    have hserial : SerialNumber.ofTlv? serial.tlv = some serial := h.2
    simp only [ofTlv?, if_neg htag, hinside, hissuer, hserial, Option.bind_eq_bind, Option.bind_some]
    rfl
  | key id => exact if_pos rfl

/-- What tells a recipient is readable if it was read. -/
lemma isReadable_of_ofTlv? {t : Tlv} (h : ofTlv? t = some i) : i.IsReadable := by
  unfold ofTlv? at h
  split at h
  · cases h
    trivial
  · obtain ⟨ts, -, h⟩ := Option.bind_eq_some_iff.1 h
    split at h
    · obtain ⟨n, hn, h⟩ := Option.bind_eq_some_iff.1 h
      obtain ⟨s, hs, h⟩ := Option.bind_eq_some_iff.1 h
      cases h
      exact ⟨Name.le_of_ofTlv? hn, SerialNumber.readable_of_ofTlv? hs⟩
    · cases h

end RecipientId

/-! ### Recipients with a key transport key -/

namespace KeyTransport

variable {k : KeyTransport}

/-- A recipient with a key transport key has a known tag, that of a sequence. -/
@[simp] lemma known_tlv (k : KeyTransport) : k.tlv.Known :=
  rfl

/-- A recipient with a key transport key has the tag of a sequence. -/
lemma tag_tlv (k : KeyTransport) : k.tlv.tag = Tag.sequence :=
  rfl

/-- What the reader asks of a recipient with a key transport key. -/
structure IsReadable (k : KeyTransport) : Prop where
  version_le : k.version ≤ 5
  recipient : k.recipient.IsReadable
  algorithm : shortestOid ≤ k.algorithm.algorithm.octets.length

/-- A recipient with a key transport key is read again if it is readable and not too long. -/
lemma IsReadable.ofTlv?_tlv (h : k.IsReadable) (hf : k.tlv.Fits) : ofTlv? k.tlv = some k := by
  have hinside : k.tlv.inside? Tag.sequence =
      some [.ofInt k.version, k.recipient.tlv, k.algorithm.tlv, .ofOctets k.encryptedKey] :=
    Tlv.inside?_around hf (by simp)
  have hrecipient := h.recipient.ofTlv?_tlv (hf.of_mem (by simp))
  have halgorithm : AlgorithmIdentifier.ofTlv? k.algorithm.tlv = some k.algorithm :=
    (AlgorithmIdentifier.ofTlv?_tlv_iff (hf.of_mem (by simp))).2 ⟨rfl, h.algorithm⟩
  simp only [ofTlv?, hinside, version?_ofInt h.version_le, hrecipient, halgorithm, Tlv.toOctets?_ofOctets,
    Option.bind_eq_bind, Option.bind_some]
  rfl

/-- A recipient with a key transport key is readable if it was read. -/
lemma isReadable_of_ofTlv? {t : Tlv} (h : ofTlv? t = some k) : k.IsReadable := by
  obtain ⟨ts, -, h⟩ := Option.bind_eq_some_iff.1 h
  split at h
  · obtain ⟨version, hversion, h⟩ := Option.bind_eq_some_iff.1 h
    obtain ⟨recipient, hrecipient, h⟩ := Option.bind_eq_some_iff.1 h
    obtain ⟨algorithm, halgorithm, h⟩ := Option.bind_eq_some_iff.1 h
    obtain ⟨encryptedKey, -, h⟩ := Option.bind_eq_some_iff.1 h
    cases h
    exact ⟨le_of_version? hversion, RecipientId.isReadable_of_ofTlv? hrecipient,
      AlgorithmIdentifier.le_of_ofTlv? halgorithm⟩
  · cases h

end KeyTransport

/-! ### Recipients -/

/-- A recipient of another kind stands under one of four tags. -/
lemma tag_of_isOtherRecipient {t : Tlv} (h : isOtherRecipient t = true) :
    t.tag ∈ [1, 2, 3, 4].map Tag.contextConstructed := by
  unfold isOtherRecipient at h
  split at h
  · cases h
  · simp only [Bool.or_eq_true, Bool.and_eq_true, beq_iff_eq] at h
    obtain ((⟨htag, -⟩ | ⟨htag, -⟩) | ⟨htag, -⟩) | ⟨htag, -⟩ := h <;> simp [htag]

namespace Recipient

variable {r : Recipient}

/-- What the reader asks of a recipient. -/
def IsReadable : Recipient → Prop
  | keyTransport k => k.IsReadable
  | other t => isOtherRecipient t = true

/-- A readable recipient has a known tag, whatever kind it is of. -/
lemma IsReadable.known_tlv (h : r.IsReadable) : r.tlv.Known := by
  cases r with
  | keyTransport k => exact k.known_tlv
  | other t =>
    have hknown : ([1, 2, 3, 4].map Tag.contextConstructed).all Tag.isKnown = true := by decide
    exact List.all_eq_true.1 hknown t.tag (tag_of_isOtherRecipient h)

/-- A readable recipient that is not too long is read again. -/
lemma IsReadable.ofTlv?_tlv (h : r.IsReadable) (hf : r.tlv.Fits) : ofTlv? r.tlv = some r := by
  cases r with
  | keyTransport k =>
    have hread : KeyTransport.ofTlv? k.tlv = some k := KeyTransport.IsReadable.ofTlv?_tlv h hf
    show ofTlv? k.tlv = _
    rw [ofTlv?, if_pos k.tag_tlv, hread]
    rfl
  | other t =>
    have hother : isOtherRecipient t = true := h
    have hsequence : Tag.sequence ∉ [1, 2, 3, 4].map Tag.contextConstructed := by decide
    have hne : t.tag ≠ Tag.sequence := fun htag => hsequence (htag ▸ tag_of_isOtherRecipient hother)
    show ofTlv? t = _
    rw [ofTlv?, if_neg hne, if_pos hother]

/-- A recipient that was read is readable. -/
lemma isReadable_of_ofTlv? {t : Tlv} (h : ofTlv? t = some r) : r.IsReadable := by
  unfold ofTlv? at h
  split at h
  · obtain ⟨k, hk, rfl⟩ := Option.map_eq_some_iff.1 h
    exact KeyTransport.isReadable_of_ofTlv? hk
  · obtain ⟨hother, h⟩ := Option.ite_none_right_eq_some.1 h
    cases h
    exact hother

end Recipient

end CertAuthority.Recovery
