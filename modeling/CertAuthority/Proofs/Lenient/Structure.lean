import CertAuthority.Proofs.Lenient.Written
import CertAuthority.Proofs.RevocationList.RoundTrip

/-!
# The lenient reader on what an authority signs

A certificate that an authority puts together is read by the lenient reader exactly if the unused bits of the
subject's key are zero (`exists_certificateFields?_content`), and a revocation list always is
(`listFields?_content`), whatever names, times, entries and extensions they have. Around the signed part
the algorithm and the signature are read as they were written (`signed?_encode`).
-/

namespace CertAuthority.Lenient

open Der

/-! ## Optional fields -/

/-- A field with another number is left where it is. -/
lemma field?_of_ne {n : Nat} {t : Tlv} (h : t.Readable) (hn : t.tag.toNat % 32 ≠ n) (rest : Octets) :
    field? n (t.encode ++ rest) = some (none, t.encode ++ rest) := by
  simp only [field?, Tlv.isEmpty_encode_append, Bool.false_eq_true, if_false, element?_encode h,
    number_ofTlv, Option.bind_eq_bind, Option.bind_some, if_pos hn]

/-- The lenient reader takes the version that certificates are written with. -/
lemma version?_encode (h : (Tlv.explicit 0 (.ofInt TbsCertificate.v3)).Readable) (rest : Octets) :
    version? ((Tlv.explicit 0 (.ofInt TbsCertificate.v3)).encode ++ rest) = some ((), rest) := by
  have hword : word? (Tlv.explicit 0 (.ofInt TbsCertificate.v3)).content = some ((), []) := by
    decide +kernel
  simp only [version?, field?, Tlv.isEmpty_encode_append, Bool.false_eq_true, if_false, element?_encode h,
    Option.bind_eq_bind, Option.bind_some]
  exact congrArg (Option.bind · fun _ => some ((), rest)) hword

/-- A mark that is not there is passed over in front of extensions. -/
lemma uniqueId?_extensions {n : Nat} {es : Option (List Extension)} (hn : n ≠ 3)
    (h : ∀ t ∈ es.toList.map fun es => Tlv.explicit 3 (Extension.listTlv es), t.Fits) :
    uniqueId? n ((es.toList.map fun es => Tlv.explicit 3 (Extension.listTlv es)).flatMap Tlv.encode) =
      some ((), (es.toList.map fun es => Tlv.explicit 3 (Extension.listTlv es)).flatMap Tlv.encode) := by
  cases es with
  | none => rfl
  | some es =>
    have hr : (Tlv.explicit 3 (Extension.listTlv es)).Readable :=
      ⟨Tlv.known_explicit rfl, h _ (by simp)⟩
    have hnumber : (Tag.contextConstructed 3).toNat % 32 ≠ n := fun hc => hn hc.symm
    have hfield := field?_of_ne hr hnumber []
    simp only [Option.toList_some, List.map_cons, List.map_nil, List.flatMap_cons, List.flatMap_nil,
      uniqueId?, hfield, Option.bind_eq_bind, Option.bind_some]
    rfl

/-! ## Certificates -/

/-- The signed part of a certificate of the third version without marks is read exactly if the unused bits
of the subject's key are zero. -/
lemma exists_certificateFields?_content {c : TbsCertificate} (hv : c.version = TbsCertificate.v3)
    (hissuer : c.issuerUniqueId = none) (hsubject : c.subjectUniqueId = none) (hf : c.tlv.Fits) :
    ∃ subject, certificateFields? c.tlv.content =
      if c.publicKey.key.HasZeroPadding then some (ofIdentifier c.signature, subject) else none := by
  have hfields : c.fields = .explicit 0 (.ofInt TbsCertificate.v3) ::
      (c.fixedFields ++ c.extensionFields) := by
    simp [TbsCertificate.fields, TbsCertificate.versionField, TbsCertificate.optionalFields,
      TbsCertificate.subjectFields, hv, hissuer, hsubject, TbsCertificate.v3]
  rw [c.tlv_eq, hfields] at hf ⊢
  -- Every field is readable because the whole is, and every reader below finds its field in front.
  have hr {t : Tlv} (hk : t.Known) (ht : t ∈ c.fixedFields) : t.Readable :=
    ⟨hk, hf.of_mem (by simp [ht])⟩
  have hversion : (Tlv.explicit 0 (.ofInt TbsCertificate.v3)).Readable :=
    ⟨Tlv.known_explicit rfl, hf.of_mem List.mem_cons_self⟩
  have hserial := hr c.serial.known_tlv (by simp [TbsCertificate.fixedFields])
  have hsignature := hr c.signature.known_tlv (by simp [TbsCertificate.fixedFields])
  have hissuerName := hr c.issuer.known_tlv (by simp [TbsCertificate.fixedFields])
  have hvalidity := hr (TbsCertificate.known_validityTlv c.notBefore c.notAfter)
    (by simp [TbsCertificate.fixedFields])
  have hsubjectName := hr c.subject.known_tlv (by simp [TbsCertificate.fixedFields])
  have hkey := hr c.publicKey.known_tlv (by simp [TbsCertificate.fixedFields])
  have hextensions : ∀ t ∈ c.extensionFields, t.Fits := fun t ht => hf.of_mem (by simp [ht])
  -- Neither mark is there, so the reader comes to the extensions unmoved.
  have hone : uniqueId? 1 (c.extensionFields.flatMap Tlv.encode) =
      some ((), c.extensionFields.flatMap Tlv.encode) :=
    uniqueId?_extensions (by decide) hextensions
  have htwo : uniqueId? 2 (c.extensionFields.flatMap Tlv.encode) =
      some ((), c.extensionFields.flatMap Tlv.encode) :=
    uniqueId?_extensions (by decide) hextensions
  have hend : endsWithExtensions 3 (c.extensionFields.flatMap Tlv.encode) = true :=
    endsWithExtensions_encode rfl rfl hextensions
  have hc : (Tlv.sequence (.explicit 0 (.ofInt TbsCertificate.v3) ::
      (c.fixedFields ++ c.extensionFields))).content =
        (Tlv.explicit 0 (.ofInt TbsCertificate.v3)).encode ++ (c.serial.tlv.encode ++
          (c.signature.tlv.encode ++ (c.issuer.tlv.encode ++
            ((TbsCertificate.validityTlv c.notBefore c.notAfter).encode ++ (c.subject.tlv.encode ++
              (c.publicKey.tlv.encode ++ c.extensionFields.flatMap Tlv.encode)))))) := by
    simp [Tlv.sequence, TbsCertificate.fixedFields]
  obtain ⟨issuer, hi⟩ := exists_name?_encode hissuerName
    ((TbsCertificate.validityTlv c.notBefore c.notAfter).encode ++ (c.subject.tlv.encode ++
      (c.publicKey.tlv.encode ++ c.extensionFields.flatMap Tlv.encode)))
  obtain ⟨subject, hs⟩ := exists_name?_encode hsubjectName
    (c.publicKey.tlv.encode ++ c.extensionFields.flatMap Tlv.encode)
  refine ⟨subject, ?_⟩
  simp only [hc, certificateFields?, version?_encode hversion, serial?_encode hserial,
    algorithm?_encode hsignature, hi, validity?_encode hvalidity, hs, publicKey?_encode hkey,
    Option.bind_eq_bind, Option.bind_some]
  split
  · simp only [Option.bind_some, hone, htwo, hend, if_true]
  · rfl

/-! ## Revocation lists -/

/-- The lenient reader takes the version that revocation lists are written with. -/
lemma listVersion?_encode (h : (Tlv.ofInt TbsRevocationList.v2).Readable) (rest : Octets) :
    listVersion? ((Tlv.ofInt TbsRevocationList.v2).encode ++ rest) = some ((), rest) := by
  have hp : primitive? integerNumber ((Tlv.ofInt TbsRevocationList.v2).encode ++ rest) =
      some ((Tlv.ofInt TbsRevocationList.v2).content, rest) :=
    primitive?_encode Tag.integer h rfl rfl rfl rest
  have hword : isWord (Tlv.ofInt TbsRevocationList.v2).content = true := by decide +kernel
  have hn : (ofTlv (Tlv.ofInt TbsRevocationList.v2)).number = integerNumber := rfl
  simp only [listVersion?, word?, element?_encode h, hp, hword, hn, Option.bind_eq_bind,
    Option.bind_some, if_true]

/-- The time of the next list is passed over. -/
lemma nextUpdate?_encode {t : Timestamp} (h : t.tlv.Readable) (rest : Octets) :
    nextUpdate? (t.tlv.encode ++ rest) = some ((), rest) := by
  have hn : ((ofTlv t.tlv).number = 23 || (ofTlv t.tlv).number = 24) = true := by
    rw [number_ofTlv]
    obtain ⟨htag, -⟩ | ⟨htag, -⟩ := isUtcTime_or_isGeneralizedTime t <;> rw [htag] <;> decide
  simp only [nextUpdate?, Tlv.isEmpty_encode_append, Bool.false_eq_true, if_false, element?_encode h,
    Option.bind_eq_bind, Option.bind_some, hn, if_true, time?_encode h]

/-- An entry is passed over, whatever its serial number is. -/
lemma revoked?_encode {c : RevokedCertificate} (h : c.tlv.Readable) (rest : Octets) :
    revoked? (c.tlv.encode ++ rest) = some ((), rest) := by
  obtain ⟨serial, date, extensions⟩ := c
  have hserial : serial.tlv.Readable := ⟨serial.known_tlv, h.fits.of_mem (by simp)⟩
  have hdate : date.tlv.Readable := ⟨date.known_tlv, h.fits.of_mem (by simp)⟩
  rw [revoked?, inSequence?_encode h rfl]
  cases extensions with
  | none =>
    have hc : (RevokedCertificate.tlv ⟨serial, date, none⟩).content =
        serial.tlv.encode ++ (date.tlv.encode ++ []) :=
      rfl
    rw [hc]
    simp only [serial?_encode hserial, time?_encode hdate, Option.bind_eq_bind, Option.bind_some]
    rfl
  | some es =>
    have hes : (Extension.listTlv es).Readable := ⟨rfl, h.fits.of_mem (by simp)⟩
    have hc : (RevokedCertificate.tlv ⟨serial, date, some es⟩).content =
        serial.tlv.encode ++ (date.tlv.encode ++ ((Extension.listTlv es).encode ++ [])) :=
      rfl
    rw [hc]
    simp only [serial?_encode hserial, time?_encode hdate, Tlv.isEmpty_encode_append, extensions?_encode hes,
      Option.bind_eq_bind, Option.bind_some]
    rfl

/-- Extensions are no entries. -/
lemma entries?_extensionFields {l : TbsRevocationList} (h : ∀ t ∈ l.extensionFields, t.Fits) :
    entries? (l.extensionFields.flatMap Tlv.encode) =
      some ((), l.extensionFields.flatMap Tlv.encode) := by
  unfold TbsRevocationList.extensionFields at h ⊢
  cases hes : l.extensions with
  | none => rfl
  | some es =>
    have hr : (Tlv.explicit 0 (Extension.listTlv es)).Readable :=
      ⟨Tlv.known_explicit rfl, h _ (by simp [hes])⟩
    have hn : (ofTlv (Tlv.explicit 0 (Extension.listTlv es))).number ≠ sequenceNumber :=
      show (Tag.contextConstructed 0).toNat % 32 ≠ sequenceNumber by decide
    simp only [Option.toList_some, List.map_cons, List.map_nil, List.flatMap_cons, List.flatMap_nil,
      entries?, Tlv.isEmpty_encode_append, Bool.false_eq_true, if_false, element?_encode hr, if_neg hn,
      Option.bind_eq_bind, Option.bind_some]

/-- Entries are passed over, however many they are. -/
lemma entries?_entriesTlv {cs : List RevokedCertificate} (h : (TbsRevocationList.entriesTlv cs).Fits)
    (rest : Octets) :
    entries? ((TbsRevocationList.entriesTlv cs).encode ++ rest) = some ((), rest) := by
  have hr : (TbsRevocationList.entriesTlv cs).Readable := ⟨Tlv.known_sequence _, h⟩
  obtain ⟨us, hall⟩ : ∃ us, all? revoked? (TbsRevocationList.entriesTlv cs).content = some us := by
    refine exists_all?_encode rfl fun t ht rest => ?_
    obtain ⟨c, -, rfl⟩ := List.mem_map.1 ht
    exact ⟨(), revoked?_encode ⟨c.known_tlv, Tlv.Fits.of_mem h ht⟩ rest⟩
  have hn : (ofTlv (TbsRevocationList.entriesTlv cs)).number = sequenceNumber :=
    show Tag.sequence.toNat % 32 = sequenceNumber by decide
  simp only [entries?, Tlv.isEmpty_encode_append, Bool.false_eq_true, if_false, element?_encode hr,
    if_pos hn, content_ofTlv, hall, Option.bind_eq_bind, Option.bind_some]
  rfl

/-- The lenient reader passes over the entries, if there are any, and leaves the extensions. -/
lemma entries?_revokedFields {l : TbsRevocationList} (h : ∀ t ∈ l.revokedFields, t.Fits) :
    entries? (l.revokedFields.flatMap Tlv.encode) =
      some ((), l.extensionFields.flatMap Tlv.encode) := by
  unfold TbsRevocationList.revokedFields at h ⊢
  cases hrevoked : l.revoked with
  | none => exact entries?_extensionFields fun t ht => h t (List.mem_append_right _ ht)
  | some cs => exact entries?_entriesTlv (h _ (by simp [hrevoked])) _

/-- The signed part of a revocation list of the second version with a time of the next is read. -/
lemma listFields?_content {l : TbsRevocationList} {next : Timestamp}
    (hv : l.version = TbsRevocationList.v2) (hnext : l.nextUpdate = some next) (hf : l.tlv.Fits) :
    listFields? l.tlv.content = some (ofIdentifier l.signature, []) := by
  rw [l.tlv_eq] at hf ⊢
  have hfields : l.fields = .ofInt TbsRevocationList.v2 :: l.signature.tlv :: l.issuer.tlv ::
      l.thisUpdate.tlv :: next.tlv :: l.revokedFields := by
    simp [TbsRevocationList.fields, TbsRevocationList.optionalFields, hv, hnext]
  rw [hfields] at hf ⊢
  have hversion : (Tlv.ofInt TbsRevocationList.v2).Readable := ⟨rfl, hf.of_mem (by simp)⟩
  have hsignature : l.signature.tlv.Readable := ⟨rfl, hf.of_mem (by simp)⟩
  have hissuer : l.issuer.tlv.Readable := ⟨rfl, hf.of_mem (by simp)⟩
  have hthis : l.thisUpdate.tlv.Readable := ⟨l.thisUpdate.known_tlv, hf.of_mem (by simp)⟩
  have hnextTlv : next.tlv.Readable := ⟨next.known_tlv, hf.of_mem (by simp)⟩
  have hrevoked : ∀ t ∈ l.revokedFields, t.Fits := fun t ht => hf.of_mem (by simp [ht])
  have hend : endsWithExtensions 0 (l.extensionFields.flatMap Tlv.encode) = true :=
    endsWithExtensions_encode rfl rfl fun t ht =>
      hrevoked t (List.mem_append_right _ ht)
  obtain ⟨issuer, hi⟩ := exists_name?_encode hissuer
    (l.thisUpdate.tlv.encode ++ (next.tlv.encode ++ l.revokedFields.flatMap Tlv.encode))
  simp only [Tlv.sequence, Tlv.content_around, List.flatMap_cons, listFields?,
    listVersion?_encode hversion, algorithm?_encode hsignature, hi, time?_encode hthis,
    nextUpdate?_encode hnextTlv, entries?_revokedFields hrevoked, hend, Option.bind_eq_bind, Option.bind_some,
    if_true]

/-! ## Signed structures -/

/-- Whatever reads the fields of a signed part, the structure around it is read. -/
lemma signed?_encode {fields? : Octets → Option (Algorithm × Octets)} {t : Tlv}
    {a : AlgorithmIdentifier} {signature : Octets} (ht : t.tag = Tag.sequence)
    (hf : (signedTlv t a signature).Fits) :
    signed? fields? (signedTlv t a signature).encode =
      (fields? t.content).map fun r => (⟨⟨t.encode, r.1, r.2⟩, ofIdentifier a, signature⟩, []) := by
  have hk : t.Known := by
    rw [Tlv.Known, ht]
    rfl
  have hpart : t.Readable := ⟨hk, hf.of_mem (by simp)⟩
  have ha : a.tlv.Readable := ⟨rfl, hf.of_mem (by simp)⟩
  have hb : (Tlv.ofBitString (.ofOctets signature)).Readable := ⟨rfl, hf.of_mem (by simp)⟩
  have hc : (signedTlv t a signature).content =
      t.encode ++ (a.tlv.encode ++ ((Tlv.ofBitString (.ofOctets signature)).encode ++ [])) :=
    rfl
  have hn (rest : Octets) : numbered? sequenceNumber (t.encode ++ rest) = some (ofTlv t, rest) :=
    numbered?_encode hpart (by rw [ht]; rfl) rest
  have hs : (signedTlv t a signature).Readable := ⟨Tlv.known_sequence _, hf⟩
  rw [← List.append_nil (signedTlv t a signature).encode, signed?, inSequence?_encode hs rfl, hc]
  simp only [part?, hn, content_ofTlv, Option.bind_eq_bind, Option.bind_some]
  cases fields? t.content with
  | none => rfl
  | some r =>
    simp only [Option.bind_some, Option.pure_def, algorithm?_encode ha, bitString?_encode hb,
      if_pos (hasZeroPadding_ofOctets signature)]
    simp [BitString.ofOctets]

end CertAuthority.Lenient
