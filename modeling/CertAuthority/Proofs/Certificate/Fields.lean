import CertAuthority.Proofs.Certificate.Run
import CertAuthority.Proofs.RevocationList.Run

/-!
# The fields of signed structures as octets

`Certificate.issuerOctets?`, `Certificate.subjectOctets?` and `RevocationList.issuerOctets?` cut the
octets of a name out of the octets of a structure, without looking at what the name says. Elements are
read as they were written, so the octets of an element are those that stand in the structure.
-/

namespace CertAuthority

open Der

/-- The elements in the signed part of a structure. -/
def signedFields? (der : Octets) : Option (List Tlv) := do
  match ← (← Tlv.decode? der).inside? Tag.sequence with
  | tbs :: _ => tbs.inside? Tag.sequence
  | [] => none

/-- The elements without the first if that has a tag. -/
def dropTagged (tag : UInt8) : List Tlv → List Tlv
  | [] => []
  | t :: ts => if t.tag = tag then ts else t :: ts

/-- The octets of the element at a place. -/
def octetsAt? (place : Nat) (ts : List Tlv) : Option Octets :=
  ts[place]?.map Tlv.encode

/-- What is left without the first element was there. -/
lemma mem_of_mem_dropTagged {tag : UInt8} {t : Tlv} {ts : List Tlv} (h : t ∈ dropTagged tag ts) :
    t ∈ ts := by
  cases ts with
  | nil => exact h
  | cons u us =>
    rw [dropTagged] at h
    split at h
    · exact List.mem_cons_of_mem _ h
    · exact h

/-- What is cut out of the fields of a signed part stands in the structure. -/
lemma infix_of_octetsAt? {place : Nat} {tag : UInt8} {der bs : Octets}
    (h : (signedFields? der).bind (fun ts => octetsAt? place (dropTagged tag ts)) = some bs) :
    bs <:+: der := by
  obtain ⟨fields, hf, h⟩ := Option.bind_eq_some_iff.1 h
  simp only [octetsAt?, Option.map_eq_some_iff] at h
  obtain ⟨t, ht, rfl⟩ := h
  have hm : t ∈ fields := mem_of_mem_dropTagged (List.mem_of_getElem? ht)
  simp only [signedFields?, Option.bind_eq_bind, Option.bind_eq_some_iff] at hf
  obtain ⟨whole, hw, parts, hp, hf⟩ := hf
  obtain ⟨rfl, _⟩ := Tlv.eq_of_decode? hw
  obtain ⟨rfl, _⟩ := Tlv.eq_of_inside? hp
  split at hf
  · rename_i tbs others
    obtain ⟨rfl, _⟩ := Tlv.eq_of_inside? hf
    exact (Tlv.infix_around hm).trans (Tlv.infix_around List.mem_cons_self)
  · cases hf

namespace Certificate

/-- The octets of the issuer. They come after the version, if it is there, the serial number and the
algorithm. -/
def issuerOctets? (der : Octets) : Option Octets := do
  octetsAt? 2 (dropTagged (Tag.contextConstructed 0) (← signedFields? der))

/-- The octets of the subject. They come after the issuer and the validity. -/
def subjectOctets? (der : Octets) : Option Octets := do
  octetsAt? 4 (dropTagged (Tag.contextConstructed 0) (← signedFields? der))

end Certificate

namespace RevocationList

/-- The octets of the issuer. They come after the version, if it is there, and the algorithm. -/
def issuerOctets? (der : Octets) : Option Octets := do
  octetsAt? 1 (dropTagged Tag.integer (← signedFields? der))

end RevocationList

/-- The octets of the issuer stand in the certificate. -/
lemma Certificate.infix_of_issuerOctets? {der bs : Octets} (h : issuerOctets? der = some bs) :
    bs <:+: der :=
  infix_of_octetsAt? h

/-- The octets of the subject stand in the certificate. -/
lemma Certificate.infix_of_subjectOctets? {der bs : Octets} (h : subjectOctets? der = some bs) :
    bs <:+: der :=
  infix_of_octetsAt? h

/-- The octets of the issuer stand in the revocation list. -/
lemma RevocationList.infix_of_issuerOctets? {der bs : Octets} (h : issuerOctets? der = some bs) :
    bs <:+: der :=
  infix_of_octetsAt? h

/-- The elements of the signed part of a structure that was strictly written. -/
lemma signedFields?_encode {fields ts : List Tlv}
    (h : (Tlv.sequence (.sequence fields :: ts)).Fits) (hf : ∀ t ∈ fields, t.Known)
    (ht : ∀ t ∈ ts, t.Known) :
    signedFields? (Tlv.sequence (.sequence fields :: ts)).encode = some fields := by
  have hi : (Tlv.sequence (.sequence fields :: ts)).inside? Tag.sequence =
      some (.sequence fields :: ts) := by
    refine Tlv.inside?_around h fun t hm => ?_
    cases hm with
    | head => exact Tlv.known_sequence fields
    | tail _ hm => exact ht t hm
  have hs : (Tlv.sequence fields).inside? Tag.sequence = some fields :=
    Tlv.inside?_around (Tlv.Fits.of_mem h List.mem_cons_self) hf
  rw [signedFields?, Tlv.decode?_encode ⟨Tlv.known_sequence _, h⟩]
  simp only [Option.bind_eq_bind, Option.bind_some, hi, hs]

/-- The elements of a certificate that the strict reader accepts. -/
structure CertificateElements where
  version : Option Tlv
  serial : Tlv
  signature : Tlv
  issuer : Tlv
  validity : Tlv
  subject : Tlv
  publicKey : Tlv
  optionals : List Tlv
  others : List Tlv

namespace CertificateElements

/-- The elements behind the version. -/
def afterVersion (e : CertificateElements) : List Tlv :=
  e.serial :: e.signature :: e.issuer :: e.validity :: e.subject :: e.publicKey :: e.optionals

/-- The elements of the signed part. -/
def fields (e : CertificateElements) : List Tlv :=
  e.version.toList ++ e.afterVersion

/-- The elements make up the octets of a certificate. -/
structure MakeUp (e : CertificateElements) (der : Octets) : Prop where
  der_eq : der = (Tlv.sequence (.sequence e.fields :: e.others)).encode
  fits : (Tlv.sequence (.sequence e.fields :: e.others)).Fits
  fields_readable : ∀ t ∈ e.fields, t.Readable
  others_readable : ∀ t ∈ e.others, t.Readable
  version_tag : ∀ t ∈ e.version, t.tag = Tag.contextConstructed 0
  serial_tag : e.serial.tag = Tag.integer

/-- The octets of the subject are those of its element. -/
lemma MakeUp.subjectOctets?_eq {e : CertificateElements} {der : Octets} (h : e.MakeUp der) :
    Certificate.subjectOctets? der = some e.subject.encode := by
  have hs : signedFields? der = some e.fields := by
    rw [h.der_eq]
    exact signedFields?_encode h.fits (fun t ht => (h.fields_readable t ht).known)
      fun t ht => (h.others_readable t ht).known
  have hd : dropTagged (Tag.contextConstructed 0) e.fields = e.afterVersion := by
    unfold fields
    cases hv : e.version with
    | none =>
      have hne : ¬ Tag.integer = Tag.contextConstructed 0 := by decide
      rw [Option.toList_none, List.nil_append, afterVersion, dropTagged, h.serial_tag, if_neg hne]
    | some t =>
      rw [Option.toList_some, List.cons_append, dropTagged, if_pos (h.version_tag t hv)]
      rfl
  rw [Certificate.subjectOctets?, hs]
  simp only [Option.bind_eq_bind, Option.bind_some, hd]
  rfl

end CertificateElements

/-- Taking the version leaves the fields after it. -/
lemma eq_of_take_zero {ts rest : List Tlv} {o : Option Tlv} (h : Field.take 0 ts = (o, rest)) :
    ts = o.toList ++ rest := by
  have hb : ∀ t, Field.isBefore 0 t = false := by
    intro t
    simp [Field.isBefore]
  cases ts with
  | nil =>
    cases h
    rfl
  | cons t ts =>
    simp only [Field.take, List.dropWhile_cons, hb, Bool.false_eq_true, if_false] at h
    split at h
    · cases h
      rfl
    · cases h
      rfl

/-- A serial number is an INTEGER. -/
lemma tag_of_serial {t : Tlv} {s : SerialNumber} (h : SerialNumber.ofTlv? t = some s) :
    t.tag = Tag.integer := by
  rw [SerialNumber.eq_tlv_of_ofTlv? h]
  rfl

/-- A version stands under its tag. -/
lemma tag_of_version {t : Tlv} {n : Nat} (h : TbsCertificate.version? t = some n) :
    t.tag = Tag.contextConstructed 0 := by
  simp only [TbsCertificate.version?, Tlv.explicit?, Option.bind_eq_bind,
    Option.bind_eq_some_iff] at h
  obtain ⟨_, he, _⟩ := h
  split at he
  · assumption
  · cases he

/-- The fields that are read after the version begin with a serial number and go on to a public key. -/
lemma exists_of_read? {version shortest : Nat} {ts : List Tlv} {c : TbsCertificate}
    (h : TbsCertificate.read? version shortest ts = some c) :
    ∃ serial signature issuer validity subject publicKey optionals,
      ts = serial :: signature :: issuer :: validity :: subject :: publicKey :: optionals ∧
        serial.tag = Tag.integer := by
  unfold TbsCertificate.read? at h
  split at h
  · rename_i serial signature issuer validity subject publicKey optionals
    simp only [Option.bind_eq_bind, Option.bind_none, Option.bind_eq_some_iff,
      Option.ite_none_left_eq_some] at h
    obtain ⟨_, _, _, _, hs, _⟩ := h
    exact ⟨serial, signature, issuer, validity, subject, publicKey, optionals, rfl, tag_of_serial hs⟩
  · cases h

/-- What the strict reader accepts is made up of the elements of a certificate. -/
lemma exists_makeUp {der : Octets} {c : Certificate} {shortest : Nat}
    (h : Certificate.decode? der shortest = some c) :
    ∃ e : CertificateElements, e.MakeUp der := by
  simp only [Certificate.decode?, Certificate.ofTlv?, Option.bind_eq_bind,
    Option.bind_eq_some_iff] at h
  obtain ⟨t, ht, parts, hparts, h⟩ := h
  split at h
  · rename_i tbs algorithm signature
    simp only [Option.bind_eq_some_iff] at h
    obtain ⟨c', htbs, _⟩ := h
    simp only [TbsCertificate.ofTlv?, Option.bind_eq_bind, Option.bind_eq_some_iff] at htbs
    obtain ⟨fields, hfields, v, hv, hread⟩ := htbs
    -- of what is read after the version only the tag of the serial number matters
    obtain ⟨version, rest, htake⟩ : ∃ version rest, Field.take 0 fields = (version, rest) :=
      ⟨_, _, rfl⟩
    rw [htake] at hv hread
    obtain ⟨serial, sig, issuer, validity, subject, publicKey, optionals, rfl, hserial⟩ :=
      exists_of_read? hread
    have hfields' := eq_of_take_zero htake
    obtain ⟨rfl, hr⟩ := Tlv.eq_of_decode? ht
    obtain ⟨rfl, hparts'⟩ := Tlv.eq_of_inside? hparts
    obtain ⟨rfl, hf⟩ := Tlv.eq_of_inside? hfields
    refine ⟨⟨version, serial, sig, issuer, validity, subject, publicKey, optionals,
      [algorithm, signature]⟩, ?_⟩
    refine ⟨by rw [hfields']; rfl, by rw [hfields'] at hr; exact hr.fits, ?_, ?_, ?_, hserial⟩
    · exact fun t ht => hf t (hfields' ▸ ht)
    · exact fun t ht => hparts' t (List.mem_cons_of_mem _ ht)
    · intro t ht
      cases ht
      simp only [Field.optional, Option.map_eq_some_iff] at hv
      obtain ⟨n, hn, _⟩ := hv
      exact tag_of_version hn
  · cases h

namespace Authority

section

variable {ca : Authority} {request : Request} {p : ResolvedProfile} {key : SigningKey} {now : Nat}
  {drawn : Octets} {cert : IssuedCertificate}

/-- The fields of a certificate that was issued, without the version. -/
lemma IssueRun.afterVersion_eq (run : IssueRun ca request p key now drawn cert) :
    (signedFields? cert.der).map (dropTagged (Tag.contextConstructed 0)) =
      some (run.tbs.fixedFields ++ run.tbs.optionalFields) := by
  obtain ⟨parts, h⟩ := exists_isPrepared run.tbs_eq
  have hf := run.fits
  rw [Certificate.tlv, TbsCertificate.tlv_eq] at hf
  have hs : signedFields? cert.der = some run.tbs.fields := by
    rw [run.der_eq, Certificate.tlv, TbsCertificate.tlv_eq]
    exact signedFields?_encode hf (fun t ht => TbsCertificate.known_of_mem_fields ht) (by simp)
  have hv : run.tbs.versionField = some 2 := by
    rw [TbsCertificate.versionField, h.version]
    rfl
  rw [hs, TbsCertificate.fields, hv]
  rfl

/-- The issuer in a certificate that was issued is that of its signed part. -/
lemma IssueRun.issuerOctets?_eq (run : IssueRun ca request p key now drawn cert) :
    Certificate.issuerOctets? cert.der = some run.tbs.issuer.encode := by
  obtain ⟨fields, hs, hd⟩ := Option.map_eq_some_iff.1 run.afterVersion_eq
  rw [Certificate.issuerOctets?, hs]
  simp only [Option.bind_eq_bind, Option.bind_some, hd]
  rfl

/-- The subject in a certificate that was issued is that of its signed part. -/
lemma IssueRun.subjectOctets?_eq (run : IssueRun ca request p key now drawn cert) :
    Certificate.subjectOctets? cert.der = some run.tbs.subject.encode := by
  obtain ⟨fields, hs, hd⟩ := Option.map_eq_some_iff.1 run.afterVersion_eq
  rw [Certificate.subjectOctets?, hs]
  simp only [Option.bind_eq_bind, Option.bind_some, hd]
  rfl

end

/-- The issuer in a revocation list that was issued is that of its signed part. -/
lemma ListRun.issuerOctets?_eq {ca : Authority} {entries : List RevocationEntry} {number : Nat}
    {key : SigningKey} {now : Nat} {list : IssuedRevocationList}
    (run : ListRun ca entries number key now list) :
    RevocationList.issuerOctets? list.der = some run.tbs.issuer.encode := by
  have hf := run.fits
  rw [RevocationList.tlv, TbsRevocationList.tlv] at hf
  have hs := signedFields?_encode hf ?_ (by simp)
  · rw [RevocationList.issuerOctets?, run.der_eq, RevocationList.tlv, TbsRevocationList.tlv, hs]
    rfl
  · intro t ht
    simp only [List.mem_append, List.mem_map, Option.mem_toList, List.mem_cons, List.not_mem_nil,
      or_false] at ht
    rcases ht with (((rfl | rfl | rfl | rfl) | ⟨u, _, rfl⟩) | ⟨cs, _, rfl⟩) | ⟨es, _, rfl⟩
    · simp
    · simp
    · simp
    · simp
    · simp
    · simp
    · exact Tlv.known_explicit (by decide)

end Authority

end CertAuthority
