import CertAuthority.Lenient.Element
import CertAuthority.Proofs.Der.Value

/-!
# The lenient reader on strictly written elements

The two readers of elements share nothing, but on octets that were strictly written they agree: the
lenient one finds the same element (`element?_encode`), takes the same octets and leaves the same rest.
-/

namespace CertAuthority.Lenient

open Der

/-- A length below the limit is read as it was written, whatever follows. -/
lemma length?_lengthOctets {n : Nat} (h : n ≤ maxLength) (rest : Octets) :
    length? (lengthOctets n ++ rest) = some (n, rest) := by
  unfold lengthOctets
  split
  · rename_i hn
    have hb : (UInt8.ofNat n).toNat = n := Octets.toNat_ofNat_octet (by omega)
    have hlt : UInt8.ofNat n < 128 := by
      rw [UInt8.lt_iff_toNat_lt, hb]
      exact hn
    simp only [List.cons_append, List.nil_append, length?, if_pos hlt, hb]
  · rename_i hn
    have hw := byteLength_le_four h
    obtain ⟨hb, hge⟩ := count_spec hw
    -- no octets and 127 octets would have other meanings
    have hpos : Octets.byteLength n ≠ 0 := by
      intro h0
      have hl := Octets.lt_pow_byteLength n
      rw [h0] at hl
      omega
    have h127 : Octets.byteLength n ≠ 127 := by omega
    simp only [List.cons_append, length?, if_neg hge, hb, Nat.add_sub_cancel_left,
      Octets.take_byteLength, Octets.drop_byteLength, Octets.toNat_ofNat]
    simp [hpos, h127]

/-- A tag that the strict reader knows is one octet for the lenient one. -/
lemma number_of_known {t : Tlv} (h : t.Known) : t.tag % 32 ≠ 31 := by
  have hk : Tag.isKnown t.tag = true := h
  unfold Tag.isKnown at hk
  split at hk
  · intro he
    have hm : t.tag ∈ Tag.universal := by simpa using hk
    have hall : ∀ tag ∈ Tag.universal, tag % 32 ≠ 31 := by decide +kernel
    exact hall _ hm he
  · simpa using hk

/-- An element as the lenient reader sees it. -/
def ofTlv (t : Tlv) : Element :=
  ⟨[t.tag], t.content⟩

/-- The lenient reader sees the content of an element that was written. -/
@[simp] lemma content_ofTlv (t : Tlv) : (ofTlv t).content = t.content :=
  rfl

/-- The lenient reader sees the low bits of the tag as the number of an element that was written. -/
@[simp] lemma number_ofTlv (t : Tlv) : (ofTlv t).number = t.tag.toNat % 32 :=
  rfl

/-- The tag and the length of an element that the strict reader would read are read. -/
lemma header?_encode {t : Tlv} (h : t.Readable) (rest : Octets) :
    header? (t.encode ++ rest) = some (([t.tag], t.content.length), t.content ++ rest) := by
  have hn := number_of_known h.known
  have hl := length?_lengthOctets h.fits (t.content ++ rest)
  have ht : tag? (t.encode ++ rest) =
      some ([t.tag], lengthOctets t.content.length ++ (t.content ++ rest)) := by
    simp [Tlv.encode, tag?, hn]
  simp [header?, ht, hl]

/-- An element that the strict reader would read is read. -/
lemma element?_encode {t : Tlv} (h : t.Readable) (rest : Octets) :
    element? (t.encode ++ rest) = some (ofTlv t, rest) := by
  simp [element?, header?_encode h, ofTlv]

/-- An element is read by its number. -/
lemma numbered?_encode {t : Tlv} {n : Nat} (h : t.Readable) (hn : t.tag.toNat % 32 = n)
    (rest : Octets) : numbered? n (t.encode ++ rest) = some (ofTlv t, rest) := by
  simp [numbered?, element?_encode h, hn]

/-- An element that is not made of elements is read by its number. -/
lemma primitive?_encode (tag : UInt8) {t : Tlv} {n : Nat} (h : t.Readable) (ht : t.tag = tag)
    (hn : tag.toNat % 32 = n) (hc : tag.toNat / 32 % 2 = 0) (rest : Octets) :
    primitive? n (t.encode ++ rest) = some (t.content, rest) := by
  subst ht
  have hp : (ofTlv t).isConstructed = false := by
    simp [Element.isConstructed, ofTlv, hc]
  simp [primitive?, numbered?_encode h hn, hp]

/-- A SEQUENCE is read by what reads its content. -/
lemma inSequence?_encode {α : Type} {read? : Octets → Option α} {t : Tlv} (h : t.Readable)
    (ht : t.tag = Tag.sequence) (rest : Octets) :
    inSequence? read? (t.encode ++ rest) = (read? t.content).map fun a => (a, rest) := by
  have hn : numbered? sequenceNumber (t.encode ++ rest) = some (ofTlv t, rest) :=
    numbered?_encode h (by rw [ht]; rfl) rest
  simp only [inSequence?, hn, content_ofTlv, Option.bind_eq_bind, Option.bind_some]
  cases read? t.content <;> rfl

/-- What is read by a number is the element at the front. -/
lemma eq_of_numbered? {t : Tlv} {n : Nat} {e : Element} {rest left : Octets} (h : t.Readable)
    (hr : numbered? n (t.encode ++ rest) = some (e, left)) :
    e = ofTlv t ∧ left = rest ∧ t.tag.toNat % 32 = n := by
  simp only [numbered?, element?_encode h, Option.bind_eq_bind, Option.bind_some] at hr
  split at hr
  · rename_i hn
    cases hr
    exact ⟨rfl, rfl, hn⟩
  · cases hr

/-- What is read from a SEQUENCE is read from the content of the element at the front, and all of
that element is consumed. -/
lemma eq_of_inSequence? {α : Type} {read? : Octets → Option α} {t : Tlv} {a : α}
    {rest left : Octets} (h : t.Readable) (hr : inSequence? read? (t.encode ++ rest) = some (a, left)) :
    read? t.content = some a ∧ left = rest := by
  simp only [inSequence?, Option.bind_eq_bind, Option.bind_eq_some_iff] at hr
  obtain ⟨⟨e, r⟩, he, b, hb, hab⟩ := hr
  obtain ⟨rfl, rfl, _⟩ := eq_of_numbered? h he
  cases hab
  exact ⟨hb, rfl⟩

end CertAuthority.Lenient
