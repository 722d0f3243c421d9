import CertAuthority.Proofs.Lenient.Name
import CertAuthority.Proofs.Lenient.Signed
import CertAuthority.Proofs.Lenient.Time

/-!
# The lenient reader on strictly written fields

The lenient reader passes over every field that was strictly written, with one exception: a public key with
unused bits that are not zero (`publicKey?_encode`).
-/

namespace CertAuthority.Lenient

open Der

/-- Elements that are read one by one are all read. -/
lemma exists_all?_encode {α : Type} {read? : Octets → Option (α × Octets)} {ts : List Tlv}
    (hnil : read? [] = none) (h : ∀ t ∈ ts, ∀ rest, ∃ a, read? (t.encode ++ rest) = some (a, rest)) :
    ∃ as, all? read? (ts.flatMap Tlv.encode) = some as := by
  have hall := many_flatMap hnil h (Tlv.length_le_flatMap ts)
  unfold all?
  generalize many read? _ _ = r at hall ⊢
  obtain ⟨as, left⟩ := r
  obtain rfl : left = [] := hall
  exact ⟨as, rfl⟩

/-- A public key is passed over exactly if its unused bits are zero. -/
lemma publicKey?_encode {k : PublicKeyInfo} (h : k.tlv.Readable) (rest : Octets) :
    publicKey? (k.tlv.encode ++ rest) = if k.key.HasZeroPadding then some ((), rest) else none := by
  have ha : k.algorithm.tlv.Readable := ⟨rfl, h.fits.of_mem (by simp)⟩
  have hb : (Tlv.ofBitString k.key).Readable := ⟨rfl, h.fits.of_mem (by simp)⟩
  have hc : k.tlv.content = k.algorithm.tlv.encode ++ ((Tlv.ofBitString k.key).encode ++ []) :=
    rfl
  rw [publicKey?, inSequence?_encode h rfl, hc]
  simp only [algorithm?_encode ha, bitString?_encode hb, Option.bind_eq_bind, Option.bind_some]
  split <;> rfl

/-- The lenient reader passes over a serial number that was written. -/
lemma serial?_encode {s : SerialNumber} (h : s.tlv.Readable) (rest : Octets) :
    serial? (s.tlv.encode ++ rest) = some ((), rest) := by
  have hn : numbered? integerNumber (s.tlv.encode ++ rest) = some (ofTlv s.tlv, rest) :=
    numbered?_encode h rfl rest
  simp only [serial?, hn, Option.bind_eq_bind, Option.bind_some]
  rfl

/-- A name is passed over, also one that is not read to its end. -/
lemma exists_name?_encode {n : Name} (h : n.tlv.Readable) (rest : Octets) :
    ∃ bs, name? (n.tlv.encode ++ rest) = some (bs, rest) := by
  have hn : numbered? sequenceNumber (n.tlv.encode ++ rest) = some (ofTlv n.tlv, rest) :=
    numbered?_around h rfl rest
  simp only [name?, hn, Option.bind_eq_bind, Option.bind_some]
  exact ⟨_, rfl⟩

/-- The lenient reader passes over a window that was written. -/
lemma validity?_encode {notBefore notAfter : Timestamp}
    (h : (TbsCertificate.validityTlv notBefore notAfter).Readable) (rest : Octets) :
    validity? ((TbsCertificate.validityTlv notBefore notAfter).encode ++ rest) = some ((), rest) := by
  have h1 : notBefore.tlv.Readable := ⟨notBefore.known_tlv, h.fits.of_mem (by simp)⟩
  have h2 : notAfter.tlv.Readable := ⟨notAfter.known_tlv, h.fits.of_mem (by simp)⟩
  have hc : (TbsCertificate.validityTlv notBefore notAfter).content =
      notBefore.tlv.encode ++ (notAfter.tlv.encode ++ []) :=
    rfl
  rw [validity?, inSequence?_encode h rfl, hc]
  simp only [time?_encode h1, time?_encode h2, Option.bind_eq_bind, Option.bind_some]
  rfl

/-- The mark of a critical extension is passed over if it is there. -/
lemma critical?_encode {critical : Bool} {t : Tlv} (h : t.Readable) (ht : t.tag = Tag.octetString) :
    critical? (((if critical then [Tlv.ofBool true] else []) ++ [t]).flatMap Tlv.encode) =
      some ((), t.encode ++ []) := by
  cases critical with
  | false =>
    have hc : ((if false then [Tlv.ofBool true] else []) ++ [t]).flatMap Tlv.encode =
        t.encode ++ [] := by simp
    have hn : (ofTlv t).number ≠ 1 := by
      rw [number_ofTlv, ht]
      decide
    simp only [hc, critical?, element?_encode h, Option.bind_eq_bind, Option.bind_some, if_neg hn]
  | true =>
    have hm : (Tlv.ofBool true).Readable := ⟨rfl, show 1 ≤ maxLength by decide⟩
    have hc : ((if true then [Tlv.ofBool true] else []) ++ [t]).flatMap Tlv.encode =
        (Tlv.ofBool true).encode ++ (t.encode ++ []) := by simp
    rw [hc, critical?, element?_encode hm]
    rfl

/-- The lenient reader passes over an extension that was written. -/
lemma extension?_encode {e : Extension} (h : e.tlv.Readable) (rest : Octets) :
    extension? (e.tlv.encode ++ rest) = some ((), rest) := by
  have ho : (Tlv.ofOid e.oid).Readable := ⟨rfl, h.fits.of_mem (by simp)⟩
  have hv : (Tlv.ofOctets e.value).Readable := ⟨rfl, h.fits.of_mem (by simp)⟩
  have hc : e.tlv.content = (Tlv.ofOid e.oid).encode ++
      ((if e.critical then [Tlv.ofBool true] else []) ++ [Tlv.ofOctets e.value]).flatMap Tlv.encode :=
    rfl
  have hoid (left : Octets) : oid? ((Tlv.ofOid e.oid).encode ++ left) = some (e.oid.octets, left) :=
    primitive?_encode Tag.oid ho rfl rfl rfl left
  have hvalue : primitive? 4 ((Tlv.ofOctets e.value).encode ++ []) = some (e.value, []) :=
    primitive?_encode Tag.octetString hv rfl rfl rfl []
  rw [extension?, inSequence?_encode h rfl, hc]
  simp only [hoid, critical?_encode hv rfl, hvalue, Option.bind_eq_bind, Option.bind_some]
  rfl

/-- The lenient reader passes over extensions that were written. -/
lemma extensions?_encode {es : List Extension} (h : (Extension.listTlv es).Readable) (rest : Octets) :
    extensions? ((Extension.listTlv es).encode ++ rest) = some ((), rest) := by
  obtain ⟨us, hall⟩ : ∃ us, all? extension? (Extension.listTlv es).content = some us := by
    refine exists_all?_encode rfl fun t ht rest => ?_
    obtain ⟨e, he, rfl⟩ := List.mem_map.1 ht
    exact ⟨(), extension?_encode ⟨e.known_tlv, h.fits.of_mem ht⟩ rest⟩
  rw [extensions?, inSequence?_encode h rfl, hall]
  rfl

/-- Extensions at the end of a signed part are accepted, and so is nothing. -/
lemma endsWithExtensions_encode {n : UInt8} {number : Nat} {es : Option (List Extension)}
    (hk : Tag.isKnown (Tag.contextConstructed n) = true)
    (hn : (Tag.contextConstructed n).toNat % 32 = number)
    (h : ∀ t ∈ es.toList.map fun es => Tlv.explicit n (Extension.listTlv es), t.Fits) :
    endsWithExtensions number
      ((es.toList.map fun es => Tlv.explicit n (Extension.listTlv es)).flatMap Tlv.encode) = true := by
  cases es with
  | none => rfl
  | some es =>
    have hf : (Tlv.explicit n (Extension.listTlv es)).Fits := h _ (by simp)
    have hl : (Extension.listTlv es).Readable := ⟨rfl, Tlv.Fits.of_mem hf (by simp)⟩
    have hh := header?_encode (t := .explicit n (Extension.listTlv es)) ⟨hk, hf⟩ []
    have hc : (Tlv.explicit n (Extension.listTlv es)).content ++ [] =
        (Extension.listTlv es).encode ++ [] := by
      simp [Tlv.explicit]
    have htag : tagNumber [(Tlv.explicit n (Extension.listTlv es)).tag] = number := hn
    simp only [Option.toList_some, List.map_cons, List.map_nil, List.flatMap_cons, List.flatMap_nil,
      endsWithExtensions, hh, hc, extensions?_encode hl, htag]
    simp

end CertAuthority.Lenient
