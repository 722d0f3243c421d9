import CertAuthority.AlgorithmIdentifier
import CertAuthority.Lenient.Signed
import CertAuthority.Proofs.Lenient.Element

/-!
# What the lenient reader finds in a signed structure

A signed structure that was strictly written is a signed part, an algorithm and a signature. Whatever
the lenient reader makes of the fields of the signed part, it takes the octets of exactly that part,
that algorithm and that signature out of the structure (`eq_of_signed?`). It looks at the unused bits of
bit strings, which the strict reader and writer let be anything (`bits?_content`).
-/

namespace CertAuthority

/-- The unused bits of a string of bits are zero. -/
def Der.BitString.HasZeroPadding (b : Der.BitString) : Prop :=
  (b.octets.getLastD 0).toNat % 2 ^ b.unused.toNat = 0

instance (b : Der.BitString) : Decidable b.HasZeroPadding :=
  inferInstanceAs (Decidable (_ = _))

namespace Lenient

open Der

/-- An algorithm as the lenient reader sees it. -/
def ofIdentifier (a : AlgorithmIdentifier) : Algorithm :=
  ⟨a.algorithm.octets, a.parameters.map fun p => ofTlv p.tlv⟩

/-- The lenient reader takes an algorithm as it was written. -/
lemma algorithm?_encode {a : AlgorithmIdentifier} (h : a.tlv.Readable) (rest : Octets) :
    algorithm? (a.tlv.encode ++ rest) = some (ofIdentifier a, rest) := by
  obtain ⟨algorithm, parameters⟩ := a
  have ho : (Tlv.ofOid algorithm).Readable := ⟨rfl, h.fits.of_mem (by simp)⟩
  have hoid (left : Octets) : oid? ((Tlv.ofOid algorithm).encode ++ left) =
      some (algorithm.octets, left) :=
    primitive?_encode Tag.oid ho rfl rfl rfl left
  rw [algorithm?, inSequence?_encode h rfl]
  cases parameters with
  | none =>
    have hc : (AlgorithmIdentifier.tlv ⟨algorithm, none⟩).content =
        (Tlv.ofOid algorithm).encode ++ [] :=
      rfl
    rw [hc, hoid]
    rfl
  | some p =>
    have hp : p.tlv.Readable := ⟨p.known, h.fits.of_mem (by simp)⟩
    have hc : (AlgorithmIdentifier.tlv ⟨algorithm, some p⟩).content =
        (Tlv.ofOid algorithm).encode ++ (p.tlv.encode ++ []) :=
      rfl
    have hany : ifAny? element? (p.tlv.encode ++ []) = some (some (ofTlv p.tlv), []) := by
      rw [ifAny?, if_neg (by simp [Tlv.encode]), element?_encode hp]
      rfl
    simp only [hc, hoid, hany, Option.bind_eq_bind, Option.bind_some]
    rfl

/-- How many bits are zero at the end of an octet. -/
lemma le_trailingZeros_iff {u : UInt8} (hu : u < 8) (b : UInt8) :
    u.toNat ≤ trailingZeros b ↔ b.toNat % 2 ^ u.toNat = 0 := by
  have hall : ∀ u : Fin 8, ∀ b : Fin 256,
      u.val ≤ trailingZeros (UInt8.ofNat b.val) ↔ b.val % 2 ^ u.val = 0 := by
    decide +kernel
  have h := hall ⟨u.toNat, hu⟩ ⟨b.toNat, b.toNat_lt⟩
  simpa using h

/-- A bit string is read exactly if its unused bits are zero. -/
lemma bits?_content (b : BitString) :
    bits? b.content = if b.HasZeroPadding then some b.octets else none := by
  obtain ⟨unused, octets, hle⟩ := b
  simp only [Bool.and_eq_true, Bool.or_eq_true, decide_eq_true_eq, beq_iff_eq] at hle
  obtain ⟨hlt, hempty⟩ := hle
  unfold BitString.content BitString.HasZeroPadding
  cases octets with
  | nil =>
    obtain rfl : unused = 0 := by simpa using hempty
    rfl
  | cons b bs => simp [bits?, hlt, le_trailingZeros_iff hlt]

/-- The lenient reader takes a bit string exactly if its unused bits are zero. -/
lemma bitString?_encode {b : BitString} (h : (Tlv.ofBitString b).Readable) (rest : Octets) :
    bitString? ((Tlv.ofBitString b).encode ++ rest) =
      if b.HasZeroPadding then some (b.octets, rest) else none := by
  have hp : primitive? 3 ((Tlv.ofBitString b).encode ++ rest) = some (b.content, rest) :=
    primitive?_encode Tag.bitString h rfl rfl rfl rest
  simp only [bitString?, hp, bits?_content, Option.bind_eq_bind, Option.bind_some]
  split <;> rfl

/-- The unused bits of whole octets are zero, as there are none. -/
lemma hasZeroPadding_ofOctets (bs : Octets) : (BitString.ofOctets bs).HasZeroPadding :=
  Nat.mod_one _

/-- The octets of a signed part are found. -/
lemma eq_of_part? {fields? : Octets → Option (Algorithm × Octets)} {t : Tlv} {part : SignedPart}
    {rest left : Octets} (h : t.Readable)
    (hr : part? fields? (t.encode ++ rest) = some (part, left)) :
    part.octets = t.encode ∧ left = rest ∧
      fields? t.content = some (part.algorithm, part.subject) := by
  simp only [part?, Option.bind_eq_bind, Option.bind_eq_some_iff] at hr
  obtain ⟨⟨e, r⟩, he, ⟨a, subject⟩, hf, hp⟩ := hr
  obtain ⟨rfl, rfl, _⟩ := eq_of_numbered? h he
  cases hp
  refine ⟨?_, rfl, hf⟩
  simp

/-- A signed structure with its signature. -/
def signedTlv (t : Tlv) (a : AlgorithmIdentifier) (signature : Octets) : Tlv :=
  .sequence [t, a.tlv, .ofBitString (.ofOctets signature)]

/-- The three parts of a signed structure are found where they are, and nothing is left. -/
lemma eq_of_signed? {fields? : Octets → Option (Algorithm × Octets)} {t : Tlv}
    {a : AlgorithmIdentifier} {signature left : Octets} {s : Signed} (hk : t.Known)
    (hf : (signedTlv t a signature).Fits)
    (hr : signed? fields? (signedTlv t a signature).encode = some (s, left)) :
    left = [] ∧ s.part.octets = t.encode ∧ s.algorithm.oid = a.algorithm.octets ∧
      s.signature = signature ∧ fields? t.content = some (s.part.algorithm, s.part.subject) := by
  have ht : t.Readable := ⟨hk, hf.of_mem (by simp)⟩
  have ha : a.tlv.Readable := ⟨rfl, hf.of_mem (by simp)⟩
  have hb : (Tlv.ofBitString (.ofOctets signature)).Readable := ⟨rfl, hf.of_mem (by simp)⟩
  have hs : (signedTlv t a signature).Readable := ⟨rfl, hf⟩
  rw [← List.append_nil (signedTlv t a signature).encode] at hr
  obtain ⟨hc, rfl⟩ := eq_of_inSequence? hs hr
  have he : (signedTlv t a signature).content =
      t.encode ++ (a.tlv.encode ++ ((Tlv.ofBitString (.ofOctets signature)).encode ++ [])) := by
    simp [signedTlv, Tlv.sequence]
  simp only [he, Option.bind_eq_bind, Option.bind_eq_some_iff] at hc
  obtain ⟨⟨part, r1⟩, hp, ⟨x, r2⟩, hx, ⟨y, r3⟩, hy, e⟩ := hc
  obtain ⟨hpo, rfl, hpf⟩ := eq_of_part? ht hp
  rw [algorithm?_encode ha] at hx
  cases hx
  rw [bitString?_encode hb, if_pos (hasZeroPadding_ofOctets signature)] at hy
  cases hy
  cases e
  exact ⟨rfl, hpo, rfl, rfl, hpf⟩

end Lenient

end CertAuthority
