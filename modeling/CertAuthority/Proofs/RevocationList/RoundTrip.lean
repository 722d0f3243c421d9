import CertAuthority.Proofs.Certificate.RoundTrip
import CertAuthority.Proofs.Der.Integer
import CertAuthority.RevocationList.Basic

/-!
# Revocation lists are read as they were written

Three fields of a revocation list may be missing, and none of them but the last has a number: a reader tells
the second time from the entries, and these from the extensions, by their tags. Every list is read again as
it was written (`RevocationList.decode?_encode_iff`), whatever the number of its entries.
-/

namespace CertAuthority

open Der

namespace SerialNumber

/-- Dropping zeros at the start leaves at least one octet. -/
lemma stripZeros_ne_nil {bs : Octets} (h : bs ≠ []) : stripZeros bs ≠ [] := by
  fun_induction stripZeros bs with
  | case1 b rest ih => exact ih (List.cons_ne_nil b rest)
  | case2 bs _ => exact h

/-- The content of a positive number begins with an octet whose highest bit is clear. -/
lemma exists_positiveContent {bs : Octets} (h : bs ≠ []) :
    ∃ b rest, positiveContent bs = b :: rest ∧ b < 128 := by
  unfold positiveContent
  split
  · rename_i hstrip
    exact absurd hstrip (stripZeros_ne_nil h)
  · split
    · rename_i hb
      exact ⟨_, _, rfl, hb⟩
    · exact ⟨0, _, rfl, by decide⟩

/-- A number that is made of at least one octet is passed. -/
lemma readable_of_ofOctets {bs : Octets} {s : SerialNumber} (hne : bs ≠ []) (h : ofOctets bs = .ok s) :
    s.Readable := by
  obtain ⟨b, rest, hcontent, hb⟩ := exists_positiveContent hne
  unfold ofOctets at h
  simp only [hcontent] at h
  split at h
  · rename_i hlength
    cases h
    exact readable_of_lt hb (Nat.le_succ_of_le hlength)
  · cases h

end SerialNumber

namespace RevokedCertificate

/-- The identifiers in an entry. -/
def identifiers (c : RevokedCertificate) : List Oid :=
  (c.extensions.getD []).map (·.oid)

/-- An entry has a known tag, that of a sequence. -/
@[simp] lemma known_tlv (c : RevokedCertificate) : c.tlv.Known :=
  rfl

/-- An entry with a readable number is read again exactly if the identifiers of its extensions are long enough. -/
lemma ofTlv?_tlv_iff {c d : RevokedCertificate} {shortest : Nat} (hs : c.serial.Readable)
    (hf : c.tlv.Fits) :
    ofTlv? c.tlv shortest = some d ↔ d = c ∧ ∀ o ∈ c.identifiers, shortest ≤ o.octets.length := by
  obtain ⟨serial, date, extensions⟩ := c
  have hserial : SerialNumber.ofTlv? serial.tlv = some serial := hs
  cases extensions with
  | none =>
    have hi : (tlv ⟨serial, date, none⟩).inside? Tag.sequence = some [serial.tlv, date.tlv] :=
      Tlv.inside?_around hf (by simp)
    simp [ofTlv?, hi, hserial, identifiers, eq_comm]
  | some es =>
    have hi : (tlv ⟨serial, date, some es⟩).inside? Tag.sequence =
        some [serial.tlv, date.tlv, Extension.listTlv es] :=
      Tlv.inside?_around hf (by simp)
    have hes : (Extension.listTlv es).Fits := hf.of_mem (by simp)
    simp only [ofTlv?, hi, hserial, Timestamp.ofTlv?_tlv, Option.bind_eq_bind, Option.bind_some,
      identifiers, Option.getD_some, List.forall_mem_map]
    exact bind_eq_some_iff_of_part (fun _ => Extension.listOfTlv?_listTlv_iff hes) rfl

end RevokedCertificate

namespace TbsRevocationList

/-- The identifiers in the signed part of a revocation list. -/
def identifiers (l : TbsRevocationList) : List Oid :=
  l.signature.algorithm :: l.issuer.identifiers ++
    (l.revoked.getD []).flatMap RevokedCertificate.identifiers ++ (l.extensions.getD []).map (·.oid)

/-- A signed part that a reader without a lower bound on identifiers reads again. -/
structure Readable (l : TbsRevocationList) : Prop where
  serials : ∀ c ∈ l.revoked.getD [], c.serial.Readable
  fits : l.tlv.Fits

/-- The signed part of a revocation list has a known tag, that of a sequence. -/
@[simp] lemma known_tlv (l : TbsRevocationList) : l.tlv.Known :=
  rfl

/-- The form of the entries. -/
def entriesTlv (cs : List RevokedCertificate) : Tlv :=
  .sequence (cs.map RevokedCertificate.tlv)

/-- The extensions, if there are any. -/
def extensionFields (l : TbsRevocationList) : List Tlv :=
  l.extensions.toList.map fun es => .explicit 0 (Extension.listTlv es)

/-- The entries and what comes after them. -/
def revokedFields (l : TbsRevocationList) : List Tlv :=
  l.revoked.toList.map entriesTlv ++ l.extensionFields

/-- The time of the next list and what comes after it. -/
def optionalFields (l : TbsRevocationList) : List Tlv :=
  l.nextUpdate.toList.map Timestamp.tlv ++ l.revokedFields

/-- All fields of a signed part. -/
def fields (l : TbsRevocationList) : List Tlv :=
  .ofInt l.version :: l.signature.tlv :: l.issuer.tlv :: l.thisUpdate.tlv :: l.optionalFields

/-- A signed part is the sequence of its fields. -/
lemma tlv_eq (l : TbsRevocationList) : l.tlv = .sequence l.fields := by
  unfold tlv fields optionalFields revokedFields extensionFields
  simp only [List.cons_append, List.nil_append, List.append_assoc]
  rfl

/-- A field that passes a test is taken exactly if it is there and what follows does not pass. -/
lemma takeIf_toList {α : Type} {test : Tlv → Bool} {f : α → Tlv} {ts : List Tlv} (o : Option α)
    (hf : ∀ a, test (f a) = true) (h : ∀ t ∈ ts.head?, test t = false) :
    takeIf test (o.toList.map f ++ ts) = (o.map f, ts) := by
  cases o with
  | none =>
    cases ts with
    | nil => rfl
    | cons t ts =>
      have ht : test t = false := h t rfl
      simp [takeIf, ht]
  | some a => simp [takeIf, hf a]

/-- The first of the extensions has the number of extensions. -/
lemma tag_of_head?_extensionFields {l : TbsRevocationList} {t : Tlv}
    (h : t ∈ l.extensionFields.head?) : t.tag = Tag.contextConstructed 0 := by
  unfold extensionFields at h
  cases he : l.extensions with
  | none => simp [he] at h
  | some es =>
    simp only [he, Option.toList_some, List.map_cons, List.head?_cons, Option.mem_def,
      Option.some.injEq] at h
    rw [← h]
    rfl

/-- A time is taken for one. -/
lemma isTime_tlv (t : Timestamp) : isTime t.tlv = true := by
  unfold Timestamp.tlv Timestamp.form isTime
  split <;> rfl

/-- The time of the next list is taken if it is there, as an entry or an extension is no time. -/
lemma takeIf_optionalFields (l : TbsRevocationList) :
    takeIf isTime l.optionalFields = (l.nextUpdate.map Timestamp.tlv, l.revokedFields) := by
  refine takeIf_toList _ isTime_tlv fun t ht => ?_
  unfold revokedFields at ht
  cases hr : l.revoked with
  | none =>
    rw [hr] at ht
    rw [isTime, tag_of_head?_extensionFields ht]
    decide
  | some cs =>
    simp only [hr, Option.toList_some, List.map_cons, List.cons_append, List.head?_cons,
      Option.mem_def, Option.some.injEq] at ht
    rw [← ht]
    rfl

/-- The entries are taken if they are there, as the extensions have another tag. -/
lemma takeIf_revokedFields (l : TbsRevocationList) :
    takeIf (fun t => t.tag == Tag.sequence) l.revokedFields =
      (l.revoked.map entriesTlv, l.extensionFields) := by
  refine takeIf_toList _ (fun _ => rfl) fun t ht => ?_
  rw [tag_of_head?_extensionFields ht]
  decide

/-- The extensions are taken if they are there, and nothing is left. -/
lemma take_extensionFields (l : TbsRevocationList) : Field.take 0 l.extensionFields =
    (l.extensions.map fun es => .explicit 0 (Extension.listTlv es), []) := by
  rw [← List.append_nil l.extensionFields]
  exact Field.take_toList _ (fun _ => rfl) (by decide) (by decide) (by simp)

/-- The fields of a signed part have known tags. -/
lemma known_of_mem_fields {l : TbsRevocationList} {t : Tlv} (h : t ∈ l.fields) : t.Known := by
  simp only [fields, optionalFields, revokedFields, extensionFields, entriesTlv, List.mem_cons,
    List.mem_append, List.mem_map, Option.mem_toList] at h
  rcases h with rfl | rfl | rfl | rfl | ⟨n, _, rfl⟩ | ⟨cs, _, rfl⟩ | ⟨es, _, rfl⟩
  · exact Tlv.known_ofInt _
  · exact AlgorithmIdentifier.known_tlv _
  · exact Name.known_tlv _
  · exact Timestamp.known_tlv _
  · exact Timestamp.known_tlv _
  · exact Tlv.known_sequence _
  · exact Tlv.known_explicit (by decide)

/-- The entries are read again, in their order, exactly if the identifiers in them are long enough. -/
lemma optional_entries_iff {os ps : Option (List RevokedCertificate)} {shortest : Nat}
    (hs : ∀ c ∈ os.getD [], c.serial.Readable) (hf : ∀ cs ∈ os, (entriesTlv cs).Fits) :
    Field.optional (fun t => (t.inside? Tag.sequence).bind fun ts =>
        ts.mapM fun t => RevokedCertificate.ofTlv? t shortest) (os.map entriesTlv) = some ps ↔
      ps = os ∧ ∀ o ∈ (os.getD []).flatMap RevokedCertificate.identifiers,
        shortest ≤ o.octets.length := by
  rw [Field.optional_map_eq_some_iff (P := fun cs =>
    ∀ c ∈ cs, ∀ o ∈ c.identifiers, shortest ≤ o.octets.length)]
  · cases os with
    | none => simp
    | some cs => simp only [Option.mem_def, Option.some.injEq, forall_eq', Option.getD_some,
        List.forall_mem_flatMap]
  · intro cs hcs ds
    have hfits : (entriesTlv cs).Fits := hf cs hcs
    have hi : (entriesTlv cs).inside? Tag.sequence = some (cs.map RevokedCertificate.tlv) :=
      Tlv.inside?_around hfits (by simp)
    rw [hi, Option.bind_some]
    refine mapM_map_eq_some_iff fun c hc d => RevokedCertificate.ofTlv?_tlv_iff ?_ ?_
    · apply hs
      rw [Option.mem_def.1 hcs]
      exact hc
    · exact hfits.of_mem (List.mem_map_of_mem hc)

/-- The identifiers of a revocation list stand in its algorithm, its name, its entries and its extensions. -/
lemma forall_identifiers {l : TbsRevocationList} {P : Oid → Prop} :
    (∀ o ∈ l.identifiers, P o) ↔
      P l.signature.algorithm ∧ (∀ o ∈ l.issuer.identifiers, P o) ∧
        (∀ o ∈ (l.revoked.getD []).flatMap RevokedCertificate.identifiers, P o) ∧
          ∀ e ∈ l.extensions.getD [], P e.oid := by
  simp only [identifiers, List.cons_append, List.forall_mem_cons, List.forall_mem_append,
    List.forall_mem_map, and_assoc]

/-- A signed part is read again exactly if the identifiers in it are long enough. -/
lemma ofTlv?_tlv_iff {l m : TbsRevocationList} {shortest : Nat} (h : l.Readable) :
    ofTlv? l.tlv shortest = some m ↔ m = l ∧ ∀ o ∈ l.identifiers, shortest ≤ o.octets.length := by
  have hf : (Tlv.sequence l.fields).Fits := l.tlv_eq ▸ h.fits
  have hi : l.tlv.inside? Tag.sequence = some l.fields := by
    rw [tlv_eq]
    exact Tlv.inside?_around hf fun t ht => known_of_mem_fields ht
  -- the parts fit because the whole does
  have ha : l.signature.tlv.Fits := hf.of_mem (by simp [fields])
  have hn : l.issuer.tlv.Fits := hf.of_mem (by simp [fields])
  have hr : ∀ cs ∈ l.revoked, (entriesTlv cs).Fits := by
    intro cs hcs
    exact hf.of_mem (by simp_all [fields, optionalFields, revokedFields])
  have he : ∀ es ∈ l.extensions, (Tlv.explicit 0 (Extension.listTlv es)).Fits := by
    intro es hes
    exact hf.of_mem (by simp_all [fields, optionalFields, revokedFields, extensionFields])
  have ht : ∀ n : Option Timestamp,
      Field.optional Timestamp.ofTlv? (l.nextUpdate.map Timestamp.tlv) = some n ↔
        n = l.nextUpdate := by
    intro n
    rw [Field.optional_map_eq_some_iff (P := fun _ => True)]
    · simp
    · intro t _ u
      simp [eq_comm]
  -- each reader becomes an equation on what it reads, with a bound where it reads identifiers
  simp only [ofTlv?, hi, fields, takeIf_optionalFields, takeIf_revokedFields, take_extensionFields,
    Tlv.toNat?_ofInt, Timestamp.ofTlv?_tlv, Option.bind_eq_bind, Option.bind_some,
    List.isEmpty_nil, Bool.not_true, Bool.false_eq_true, if_false, Option.bind_eq_some_iff,
    AlgorithmIdentifier.ofTlv?_tlv_iff ha, Name.ofTlv?_tlv_iff hn, ht,
    optional_entries_iff h.serials hr, Extension.optional_explicit_iff he, forall_identifiers]
  constructor
  · rintro ⟨_, ⟨rfl, la⟩, _, ⟨rfl, ln⟩, _, rfl, _, ⟨rfl, lr⟩, _, ⟨rfl, le⟩, e⟩
    exact ⟨(Option.some.inj e).symm, la, ln, lr, le⟩
  · rintro ⟨rfl, la, ln, lr, le⟩
    exact ⟨_, ⟨rfl, la⟩, _, ⟨rfl, ln⟩, _, rfl, _, ⟨rfl, lr⟩, _, ⟨rfl, le⟩, rfl⟩

end TbsRevocationList

namespace RevocationList

/-- The identifiers in a revocation list. -/
def identifiers (l : RevocationList) : List Oid :=
  l.tbs.identifiers ++ [l.algorithm.algorithm]

/-- A revocation list that a reader without a lower bound on identifiers reads again. -/
structure Readable (l : RevocationList) : Prop where
  serials : ∀ c ∈ l.tbs.revoked.getD [], c.serial.Readable
  fits : l.tlv.Fits

/-- A revocation list has a known tag, that of a sequence. -/
@[simp] lemma known_tlv (l : RevocationList) : l.tlv.Known :=
  rfl

/-- A readable revocation list is read again exactly if its identifiers are long enough. -/
lemma ofTlv?_tlv_iff {l m : RevocationList} {shortest : Nat} (h : l.Readable) :
    ofTlv? l.tlv shortest = some m ↔ m = l ∧ ∀ o ∈ l.identifiers, shortest ≤ o.octets.length := by
  have hi : l.tlv.inside? Tag.sequence =
      some [l.tbs.tlv, l.algorithm.tlv, .ofBitString l.signature] :=
    Tlv.inside?_around h.fits (by simp)
  have ht : l.tbs.Readable := ⟨h.serials, h.fits.of_mem (by simp)⟩
  have ha : l.algorithm.tlv.Fits := h.fits.of_mem (by simp)
  simp only [ofTlv?, hi, Option.bind_eq_bind, Option.bind_some, Option.bind_eq_some_iff,
    TbsRevocationList.ofTlv?_tlv_iff ht, AlgorithmIdentifier.ofTlv?_tlv_iff ha,
    Tlv.toBitString?_ofBitString, identifiers, List.forall_mem_append, List.forall_mem_singleton]
  constructor
  · rintro ⟨_, ⟨rfl, lt⟩, _, ⟨rfl, la⟩, e⟩
    exact ⟨(Option.some.inj e).symm, lt, la⟩
  · rintro ⟨rfl, lt, la⟩
    exact ⟨_, ⟨rfl, lt⟩, _, ⟨rfl, la⟩, rfl⟩

/-- The octets of a revocation list are read as that list exactly if the identifiers in it are long enough,
and never as another one. -/
theorem decode?_encode_iff {l m : RevocationList} {shortest : Nat} (h : l.Readable) :
    decode? l.tlv.encode shortest = some m ↔
      m = l ∧ ∀ o ∈ l.identifiers, shortest ≤ o.octets.length := by
  have hd : Tlv.decode? l.tlv.encode = some l.tlv := Tlv.decode?_encode ⟨l.known_tlv, h.fits⟩
  rw [decode?, hd]
  exact ofTlv?_tlv_iff h

end RevocationList

end CertAuthority
