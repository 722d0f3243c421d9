import CertAuthority.Proofs.Der.Tlv

/-!
# How long elements are

The length of an element depends on that of its content only, and a longer content makes a longer element
(`Tlv.encodedLength_lt`). So octets that are read as an element were not written from one that is too long
(`Tlv.fits_of_decode?_encode`).
-/

namespace CertAuthority

namespace Octets

/-- A larger number needs no fewer octets. -/
lemma byteLength_mono {m n : Nat} (h : m ≤ n) : byteLength m ≤ byteLength n :=
  byteLength_le (Nat.lt_of_le_of_lt h (lt_pow_byteLength n))

end Octets

namespace Der

/-- A length below 128 has one octet, and others have one more than their number needs. -/
lemma length_lengthOctets (n : Nat) :
    (lengthOctets n).length = if n < 128 then 1 else 1 + Octets.byteLength n := by
  unfold lengthOctets
  split
  · rfl
  · rw [List.length_cons, Octets.length_ofNat, Nat.add_comm]

/-- A length that can be read has at most five octets. -/
lemma length_lengthOctets_le {n : Nat} (h : n ≤ maxLength) : (lengthOctets n).length ≤ 5 := by
  have hbytes := byteLength_le_four h
  rw [length_lengthOctets]
  split <;> omega

/-- A longer content does not have a shorter length. -/
lemma length_lengthOctets_mono {m n : Nat} (h : m ≤ n) :
    (lengthOctets m).length ≤ (lengthOctets n).length := by
  have hbytes := Octets.byteLength_mono h
  rw [length_lengthOctets, length_lengthOctets]
  split <;> split <;> omega

namespace Tlv

/-- How many octets an element has whose content has the given number of them. -/
def encodedLength (n : Nat) : Nat :=
  1 + (lengthOctets n).length + n

/-- The length of an encoding depends on the length of the content only. -/
lemma length_encode (t : Tlv) : t.encode.length = encodedLength t.content.length := by
  rw [encode, List.length_cons, List.length_append, encodedLength]
  omega

/-- An encoding is at least as long as its content. -/
lemma le_encodedLength (n : Nat) : n ≤ encodedLength n :=
  Nat.le_add_left _ _

/-- A longer content has a longer encoding. -/
lemma encodedLength_lt {m n : Nat} (h : m < n) : encodedLength m < encodedLength n := by
  have hmono := length_lengthOctets_mono (Nat.le_of_lt h)
  unfold encodedLength
  omega

/-- An element whose octets are read is not too long. -/
lemma fits_of_decode?_encode {t u : Tlv} (h : decode? t.encode = some u) : t.Fits := by
  obtain ⟨hencode, hread⟩ := eq_of_decode? h
  have hlength : encodedLength t.content.length = encodedLength u.content.length := by
    rw [← length_encode, ← length_encode, hencode]
  refine Nat.le_of_not_lt fun hlong => ?_
  have hlt : u.content.length < t.content.length := Nat.lt_of_le_of_lt hread.fits hlong
  exact absurd hlength (Nat.ne_of_gt (encodedLength_lt hlt))

end Tlv

end Der

end CertAuthority
