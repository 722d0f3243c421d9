import CertAuthority.Proofs.Certificate.Parts
import CertAuthority.Proofs.Der.Field
import CertAuthority.Proofs.Time.Timestamp

/-!
# Certificates are read as they were written

The optional fields are found by their numbers, the version is left out where it is the first, and the
times are in one of two forms; nevertheless a certificate is read again as it was written
(`Certificate.decode?_encode_iff`).
-/

namespace CertAuthority

open Der

namespace SerialNumber

/-- The first octet of a drawn number has its highest bit clear. -/
lemma markTop_lt (b : UInt8) : ((b &&& 0x3F) ||| 0x40) < 128 := by
  rw [UInt8.lt_iff_toNat_lt, UInt8.toNat_or, UInt8.toNat_and]
  exact Nat.or_lt_two_pow (n := 7) (Nat.and_lt_two_pow _ (by decide)) (by decide)

/-- A number that is short enough and begins with an octet whose highest bit is clear is passed. -/
lemma readable_of_lt {b : UInt8} {bs : Octets} (hb : b < 128) (hlength : (b :: bs).length ≤ maxContent) :
    Readable ⟨b :: bs⟩ := by
  -- the reader refuses a number for its length or after a first octet of 0xFF
  simp only [Readable, ofTlv?, tlv, Tlv.content?, if_true, Option.bind_eq_bind, Option.bind_some,
    if_neg (Nat.not_lt.2 hlength)]
  split
  · rename_i he
    simp only [List.cons.injEq] at he
    rw [he.1] at hb
    exact absurd hb (by decide)
  · rfl

/-- A number that is drawn in a width of those that are allowed is passed. -/
lemma readable_draw {width : Nat} {drawn : Octets} (h : checkWidth width = .ok ()) :
    (draw width drawn).Readable := by
  have hw : width ≤ maxContent := by
    unfold checkWidth at h
    split at h
    · rename_i hc
      simp only [Bool.and_eq_true, decide_eq_true_eq] at hc
      unfold maxContent maxWidth at *
      omega
    · cases h
  have hl : ((drawn ++ List.replicate width 0).take width).length ≤ maxContent :=
    Nat.le_trans (List.length_take_le _ _) hw
  unfold draw
  generalize (drawn ++ List.replicate width 0).take width = bs at hl ⊢
  cases bs with
  | nil => rfl
  | cons b bs => exact readable_of_lt (markTop_lt b) hl

end SerialNumber

/-- An optional list of extensions under a number is read again exactly if their identifiers are long
enough. -/
lemma Extension.optional_explicit_iff {n : UInt8} {es fs : Option (List Extension)} {shortest : Nat}
    (h : ∀ e ∈ es, (Tlv.explicit n (listTlv e)).Fits) :
    Field.optional (fun t => (t.explicit? n).bind fun t => listOfTlv? t shortest)
        (es.map fun e => .explicit n (listTlv e)) = some fs ↔
      fs = es ∧ ∀ e ∈ es.getD [], shortest ≤ e.oid.octets.length := by
  rw [Field.optional_map_eq_some_iff (P := fun e => ∀ x ∈ e, shortest ≤ x.oid.octets.length)]
  · cases es <;> simp
  · intro e he f
    have hl : (listTlv e).Fits := Tlv.Fits.of_mem (h e he) (List.mem_singleton.2 rfl)
    rw [Tlv.explicit?_explicit (h e he) (known_listTlv e), Option.bind_some]
    exact listOfTlv?_listTlv_iff hl

namespace TbsCertificate

/-- The identifiers in the signed part of a certificate. -/
def identifiers (c : TbsCertificate) : List Oid :=
  c.signature.algorithm :: c.issuer.identifiers ++ c.subject.identifiers ++
    c.publicKey.algorithm.algorithm :: (c.extensions.getD []).map Extension.oid

/-- A signed part that a reader without a lower bound on identifiers reads again. -/
structure Readable (c : TbsCertificate) : Prop where
  version_le : c.version ≤ 2
  serial : c.serial.Readable
  fits : c.tlv.Fits

/-- The signed part of a certificate has a known tag, that of a sequence. -/
@[simp] lemma known_tlv (c : TbsCertificate) : c.tlv.Known :=
  rfl

/-- A window has a known tag, that of a sequence. -/
@[simp] lemma known_validityTlv (notBefore notAfter : Timestamp) :
    (validityTlv notBefore notAfter).Known :=
  rfl

/-- The version, if it is written. -/
def versionField (c : TbsCertificate) : Option Nat :=
  if c.version = 0 then none else some c.version

/-- The fields that are always there. -/
def fixedFields (c : TbsCertificate) : List Tlv :=
  [c.serial.tlv, c.signature.tlv, c.issuer.tlv, validityTlv c.notBefore c.notAfter, c.subject.tlv,
    c.publicKey.tlv]

/-- The extensions, if there are any. -/
def extensionFields (c : TbsCertificate) : List Tlv :=
  c.extensions.toList.map fun es => .explicit 3 (Extension.listTlv es)

/-- The mark of the subject and what comes after it. -/
def subjectFields (c : TbsCertificate) : List Tlv :=
  c.subjectUniqueId.toList.map (fun b => ⟨Tag.context 2, b.content⟩) ++ c.extensionFields

/-- The mark of the issuer and what comes after it. -/
def optionalFields (c : TbsCertificate) : List Tlv :=
  c.issuerUniqueId.toList.map (fun b => ⟨Tag.context 1, b.content⟩) ++ c.subjectFields

/-- All fields of a signed part. -/
def fields (c : TbsCertificate) : List Tlv :=
  c.versionField.toList.map (fun n => .explicit 0 (.ofInt n)) ++ (c.fixedFields ++ c.optionalFields)

/-- A signed part is the sequence of its fields. -/
lemma tlv_eq (c : TbsCertificate) : c.tlv = .sequence c.fields := by
  unfold tlv fields versionField fixedFields optionalFields subjectFields extensionFields
  congr 1
  split <;> simp

/-- The version is taken from the front. -/
lemma take_fields (c : TbsCertificate) : Field.take 0 c.fields =
    (c.versionField.map fun n => .explicit 0 (.ofInt n), c.fixedFields ++ c.optionalFields) := by
  refine Field.take_toList _ (fun _ => rfl) (by decide) (by decide) fun t ht => ?_
  cases ht
  exact ⟨rfl, rfl⟩

/-- Extensions come after every field with a smaller number. -/
lemma isAfter_extensionFields (c : TbsCertificate) {t : Tlv} (h : t ∈ c.extensionFields.head?) :
    Field.IsAfter 1 t ∧ Field.IsAfter 2 t := by
  unfold extensionFields at h
  cases he : c.extensions with
  | none => simp [he] at h
  | some es =>
    simp only [he, Option.toList_some, List.map_cons, List.head?_cons, Option.mem_def,
      Option.some.injEq] at h
    subst h
    exact ⟨Field.isAfter_of_tag (Tag.contextConstructed 3) rfl (by decide) (by decide),
      Field.isAfter_of_tag (Tag.contextConstructed 3) rfl (by decide) (by decide)⟩

/-- The mark of the issuer is taken from the front. -/
lemma take_optionalFields (c : TbsCertificate) : Field.take 1 c.optionalFields =
    (c.issuerUniqueId.map fun b => ⟨Tag.context 1, b.content⟩, c.subjectFields) := by
  refine Field.take_toList _ (fun _ => rfl) (by decide) (by decide) fun t ht => ?_
  unfold subjectFields at ht
  cases hs : c.subjectUniqueId with
  | none =>
    rw [hs] at ht
    exact (c.isAfter_extensionFields ht).1
  | some b =>
    simp only [hs, Option.toList_some, List.map_cons, List.cons_append, List.head?_cons,
      Option.mem_def, Option.some.injEq] at ht
    subst ht
    exact Field.isAfter_of_tag (Tag.context 2) rfl (by decide) (by decide)

/-- The mark of the subject is taken from the front. -/
lemma take_subjectFields (c : TbsCertificate) : Field.take 2 c.subjectFields =
    (c.subjectUniqueId.map fun b => ⟨Tag.context 2, b.content⟩, c.extensionFields) :=
  Field.take_toList _ (fun _ => rfl) (by decide) (by decide) fun _ ht => (c.isAfter_extensionFields ht).2

/-- The extensions are taken, and nothing is left. -/
lemma take_extensionFields (c : TbsCertificate) : Field.take 3 c.extensionFields =
    (c.extensions.map fun es => .explicit 3 (Extension.listTlv es), []) := by
  rw [← List.append_nil c.extensionFields]
  exact Field.take_toList _ (fun _ => rfl) (by decide) (by decide) (by simp)

/-- The tags of all fields are known. -/
lemma known_of_mem_fields {c : TbsCertificate} {t : Tlv} (h : t ∈ c.fields) : t.Known := by
  simp only [fields, fixedFields, optionalFields, subjectFields, extensionFields, List.mem_append,
    List.mem_map, Option.mem_toList, List.mem_cons, List.not_mem_nil, or_false] at h
  rcases h with ⟨n, _, rfl⟩ | h | ⟨b, _, rfl⟩ | ⟨b, _, rfl⟩ | ⟨es, _, rfl⟩
  · exact Tlv.known_explicit (by decide)
  · rcases h with rfl | rfl | rfl | rfl | rfl | rfl <;> simp
  · exact Tlv.known_context (by decide)
  · exact Tlv.known_context (by decide)
  · exact Tlv.known_explicit (by decide)

/-- A version that there is is read again. -/
lemma version?_explicit {n : Nat} (h : n ≤ 2) : version? (.explicit 0 (.ofInt n)) = some n := by
  obtain rfl | rfl | rfl : n = 0 ∨ n = 1 ∨ n = 2 := by omega
  · rfl
  · rfl
  · rfl

/-- The two ends of validity are read again. -/
lemma validityOfTlv?_validityTlv {notBefore notAfter : Timestamp}
    (h : (validityTlv notBefore notAfter).Fits) :
    validityOfTlv? (validityTlv notBefore notAfter) = some (notBefore, notAfter) := by
  have hi : (validityTlv notBefore notAfter).inside? Tag.sequence =
      some [notBefore.tlv, notAfter.tlv] :=
    Tlv.inside?_around h (by simp)
  simp [validityOfTlv?, hi]

/-- A mark is read again. -/
lemma uniqueId?_content (n : UInt8) (b : BitString) :
    uniqueId? n ⟨Tag.context n, b.content⟩ = some b := by
  have h := b.unused_le
  simp only [uniqueId?, Tlv.content?, BitString.content, BitString.ofContent?,
    Option.bind_eq_bind, Option.bind_some, if_true, dif_pos h]

/-- What holds of all identifiers in a signed part holds of those in each of its fields. -/
lemma forall_identifiers {c : TbsCertificate} {P : Oid → Prop} :
    (∀ o ∈ c.identifiers, P o) ↔
      P c.signature.algorithm ∧ (∀ o ∈ c.issuer.identifiers, P o) ∧
        (∀ o ∈ c.subject.identifiers, P o) ∧ P c.publicKey.algorithm.algorithm ∧
          ∀ e ∈ c.extensions.getD [], P e.oid := by
  simp only [identifiers, List.cons_append, List.forall_mem_cons, List.forall_mem_append,
    List.forall_mem_map, and_assoc]

/-- The fields after the version are read again exactly if the identifiers in them are long enough. -/
lemma read?_fields_iff {c d : TbsCertificate} {shortest : Nat} (h : c.Readable) :
    read? c.version shortest (c.fixedFields ++ c.optionalFields) = some d ↔
      d = c ∧ ∀ o ∈ c.identifiers, shortest ≤ o.octets.length := by
  have hf : (Tlv.sequence c.fields).Fits := c.tlv_eq ▸ h.fits
  -- the parts fit because the whole does
  have hm : ∀ t ∈ c.fixedFields, t.Fits := fun t ht => hf.of_mem (by simp [fields, ht])
  have hv : validityOfTlv? (validityTlv c.notBefore c.notAfter) = some (c.notBefore, c.notAfter) :=
    validityOfTlv?_validityTlv (hm _ (by simp [fixedFields]))
  have ha : c.signature.tlv.Fits := hm _ (by simp [fixedFields])
  have hi : c.issuer.tlv.Fits := hm _ (by simp [fixedFields])
  have hs : c.subject.tlv.Fits := hm _ (by simp [fixedFields])
  have hk : c.publicKey.tlv.Fits := hm _ (by simp [fixedFields])
  have he : ∀ e ∈ c.extensions, (Tlv.explicit 3 (Extension.listTlv e)).Fits := by
    intro e he
    exact hf.of_mem (by simp_all [fields, optionalFields, subjectFields, extensionFields])
  have hu : ∀ (n : UInt8) (u v : Option BitString),
      Field.optional (uniqueId? n) (u.map fun b => ⟨Tag.context n, b.content⟩) = some v ↔ v = u := by
    intro n u v
    rw [Field.optional_map_eq_some_iff (P := fun _ => True)]
    · simp
    · intro b _ v
      simp [uniqueId?_content, eq_comm]
  have hser : SerialNumber.ofTlv? c.serial.tlv = some c.serial := h.serial
  -- each reader becomes an equation on what it reads, with a bound where it reads identifiers
  simp only [fixedFields, List.cons_append, List.nil_append, read?, hv, take_optionalFields,
    take_subjectFields, take_extensionFields, hser, Option.bind_eq_bind, Option.bind_some,
    List.isEmpty_nil, Bool.not_true, Bool.false_eq_true, if_false, Option.bind_eq_some_iff,
    AlgorithmIdentifier.ofTlv?_tlv_iff ha, Name.ofTlv?_tlv_iff hi, Name.ofTlv?_tlv_iff hs,
    PublicKeyInfo.ofTlv?_tlv_iff hk, hu, Extension.optional_explicit_iff he, forall_identifiers]
  constructor
  · rintro ⟨_, ⟨rfl, la⟩, _, ⟨rfl, li⟩, _, ⟨rfl, ls⟩, _, ⟨rfl, lk⟩, _, rfl, _, rfl, _, ⟨rfl, le⟩, e⟩
    exact ⟨(Option.some.inj e).symm, la, li, ls, lk, le⟩
  · rintro ⟨rfl, la, li, ls, lk, le⟩
    exact ⟨_, ⟨rfl, la⟩, _, ⟨rfl, li⟩, _, ⟨rfl, ls⟩, _, ⟨rfl, lk⟩, _, rfl, _, rfl, _, ⟨rfl, le⟩, rfl⟩

/-- A signed part is read again exactly if the identifiers in it are long enough. -/
lemma ofTlv?_tlv_iff {c d : TbsCertificate} {shortest : Nat} (h : c.Readable) :
    ofTlv? c.tlv shortest = some d ↔ d = c ∧ ∀ o ∈ c.identifiers, shortest ≤ o.octets.length := by
  have hi : c.tlv.inside? Tag.sequence = some c.fields := by
    have hf := h.fits
    rw [tlv_eq] at hf ⊢
    exact Tlv.inside?_around hf fun t ht => known_of_mem_fields ht
  have hv : Field.optional version? (c.versionField.map fun n : Nat => .explicit 0 (.ofInt n)) =
      some c.versionField := by
    have hle := h.version_le
    unfold versionField
    split
    · rfl
    · simp only [Option.map_some, Field.optional, version?_explicit hle]
  -- the only version that is left out is the one that a missing version is read as
  have h0 : c.versionField.getD 0 = c.version := by
    unfold versionField
    split <;> simp_all
  simp only [ofTlv?, hi, take_fields, hv, h0, Option.bind_eq_bind, Option.bind_some]
  exact read?_fields_iff h

end TbsCertificate

namespace Certificate

/-- The identifiers in a certificate. -/
def identifiers (c : Certificate) : List Oid :=
  c.tbs.identifiers ++ [c.algorithm.algorithm]

/-- A certificate that a reader without a lower bound on identifiers reads again. -/
structure Readable (c : Certificate) : Prop where
  version_le : c.tbs.version ≤ 2
  serial : c.tbs.serial.Readable
  fits : c.tlv.Fits

/-- A certificate has a known tag, that of a sequence. -/
@[simp] lemma known_tlv (c : Certificate) : c.tlv.Known :=
  rfl

/-- A certificate is read again exactly if the identifiers in it are long enough. -/
lemma ofTlv?_tlv_iff {c d : Certificate} {shortest : Nat} (h : c.Readable) :
    ofTlv? c.tlv shortest = some d ↔ d = c ∧ ∀ o ∈ c.identifiers, shortest ≤ o.octets.length := by
  have hi : c.tlv.inside? Tag.sequence =
      some [c.tbs.tlv, c.algorithm.tlv, .ofBitString c.signature] :=
    Tlv.inside?_around h.fits (by simp)
  have ht : c.tbs.Readable := ⟨h.version_le, h.serial, h.fits.of_mem (by simp)⟩
  have ha : c.algorithm.tlv.Fits := h.fits.of_mem (by simp)
  simp only [ofTlv?, hi, Option.bind_eq_bind, Option.bind_some, Option.bind_eq_some_iff,
    TbsCertificate.ofTlv?_tlv_iff ht, AlgorithmIdentifier.ofTlv?_tlv_iff ha,
    Tlv.toBitString?_ofBitString, identifiers, List.forall_mem_append, List.forall_mem_singleton]
  constructor
  · rintro ⟨_, ⟨rfl, lt⟩, _, ⟨rfl, la⟩, e⟩
    exact ⟨(Option.some.inj e).symm, lt, la⟩
  · rintro ⟨rfl, lt, la⟩
    exact ⟨_, ⟨rfl, lt⟩, _, ⟨rfl, la⟩, rfl⟩

/-- The octets of a certificate are read as that certificate exactly if the identifiers in it are long
enough, and never as another one. -/
theorem decode?_encode_iff {c d : Certificate} {shortest : Nat} (h : c.Readable) :
    decode? c.tlv.encode shortest = some d ↔
      d = c ∧ ∀ o ∈ c.identifiers, shortest ≤ o.octets.length := by
  have hd : Tlv.decode? c.tlv.encode = some c.tlv := Tlv.decode?_encode ⟨c.known_tlv, h.fits⟩
  rw [decode?, hd]
  exact ofTlv?_tlv_iff h

end Certificate

end CertAuthority
