import CertAuthority.Proofs.Certificate.Fields
import CertAuthority.Proofs.Lenient.Signed

/-!
# Where the lenient reader finds the subject

On a certificate that the strict reader accepts the lenient one passes over the same elements, one
after the other, so it cuts the subject out of the same place. It may cut it short, but then what it
cuts out is not an element (`subject_eq_of_certificate?`).
-/

namespace CertAuthority.Lenient

open Der

/-- A serial number is passed over. -/
lemma eq_of_serial? {t : Tlv} {rest left : Octets} (h : t.Readable)
    (hr : serial? (t.encode ++ rest) = some ((), left)) : left = rest := by
  simp only [serial?, Option.bind_eq_bind, Option.bind_eq_some_iff] at hr
  obtain ⟨⟨e, r⟩, he, hp⟩ := hr
  obtain ⟨_, rfl, _⟩ := eq_of_numbered? h he
  cases hp
  rfl

/-- What is read of a name is the front of its element, and the whole of it is passed over. -/
lemma eq_of_name? {t : Tlv} {bs rest left : Octets} (h : t.Readable)
    (hr : name? (t.encode ++ rest) = some (bs, left)) :
    left = rest ∧ ∃ unread, bs ++ unread = t.encode := by
  simp only [name?, Option.bind_eq_bind, Option.bind_eq_some_iff] at hr
  obtain ⟨⟨e, r⟩, he, hp⟩ := hr
  obtain ⟨_, rfl, _⟩ := eq_of_numbered? h he
  simp only [Option.pure_def, Option.some.injEq, Prod.mk.injEq] at hp
  obtain ⟨rfl, rfl⟩ := hp
  refine ⟨rfl, ?_⟩
  -- however much is left unread at its end, what was read is the front of the element
  generalize (many rdn? e.content.length e.content).2.length = unread
  have hl : (t.encode ++ r).length - r.length - unread ≤ t.encode.length := by
    rw [List.length_append]
    omega
  rw [List.take_append_of_le_length hl]
  exact ⟨_, List.take_append_drop _ _⟩

/-- The version is passed over if it is there. What comes after it is no field with its number. -/
lemma eq_of_version? {version : Option Tlv} {t : Tlv} {rest left : Octets}
    (hv : ∀ v ∈ version, v.Readable ∧ v.tag = Tag.contextConstructed 0) (ht : t.Readable)
    (htag : t.tag = Tag.integer)
    (hr : version? (version.toList.flatMap Tlv.encode ++ (t.encode ++ rest)) = some ((), left)) :
    left = t.encode ++ rest := by
  cases version with
  | none =>
    -- the next tag has another number, so the version counts as missing
    have hn : (ofTlv t).number = 2 := by
      rw [number_ofTlv, htag]
      rfl
    have he : (t.encode ++ rest).isEmpty = false := by simp [Tlv.encode]
    simp [version?, field?, he, element?_encode ht, hn] at hr
    exact hr.symm
  | some v =>
    obtain ⟨hvr, hvt⟩ := hv v rfl
    have hn : (ofTlv v).number = 0 := by
      rw [number_ofTlv, hvt]
      rfl
    have hc : (ofTlv v).tagClass = 2 := by
      simp only [Element.tagClass, ofTlv, hvt]
      rfl
    have he : (v.encode ++ (t.encode ++ rest)).isEmpty = false := by simp [Tlv.encode]
    simp [version?, field?, he, element?_encode hvr, hn, hc, Option.bind_eq_some_iff] at hr
    exact hr.2.symm

/-- The lenient reader comes to the subject among the fields of a certificate and reads a name there. -/
lemma exists_name?_of_certificateFields? {e : CertificateElements} {der subject : Octets}
    {a : Algorithm} (h : e.MakeUp der)
    (hr : certificateFields? (e.fields.flatMap Tlv.encode) = some (a, subject)) :
    ∃ rest left, name? (e.subject.encode ++ rest) = some (subject, left) := by
  have hm : ∀ t ∈ e.afterVersion, t.Readable := fun t ht => h.fields_readable t (by
    simp [CertificateElements.fields, ht])
  have hv : ∀ v ∈ e.version, v.Readable ∧ v.tag = Tag.contextConstructed 0 := fun v hv =>
    ⟨h.fields_readable v (by simp_all [CertificateElements.fields]), h.version_tag v hv⟩
  have hf : e.fields.flatMap Tlv.encode = e.version.toList.flatMap Tlv.encode ++
      (e.serial.encode ++ (e.signature.encode ++ (e.issuer.encode ++ (e.validity.encode ++
        (e.subject.encode ++ (e.publicKey :: e.optionals).flatMap Tlv.encode))))) := by
    simp [CertificateElements.fields, CertificateElements.afterVersion]
  simp only [hf, certificateFields?, Option.bind_eq_bind, Option.bind_eq_some_iff] at hr
  obtain ⟨⟨_, r0⟩, h0, ⟨_, r1⟩, h1, ⟨x, r2⟩, h2, ⟨_, r3⟩, h3, ⟨_, r4⟩, h4, ⟨s, r5⟩, h5, hr⟩ := hr
  -- each element is passed over, and the next reader starts behind it
  obtain rfl := eq_of_version? hv (hm _ (by simp [CertificateElements.afterVersion])) h.serial_tag h0
  obtain rfl := eq_of_serial? (hm _ (by simp [CertificateElements.afterVersion])) h1
  obtain ⟨_, rfl⟩ := eq_of_inSequence? (hm _ (by simp [CertificateElements.afterVersion])) h2
  obtain ⟨rfl, _⟩ := eq_of_name? (hm _ (by simp [CertificateElements.afterVersion])) h3
  obtain ⟨_, rfl⟩ := eq_of_inSequence? (hm _ (by simp [CertificateElements.afterVersion])) h4
  obtain ⟨_, _, _, _, _, _, he⟩ := hr
  split at he
  · cases he
    exact ⟨_, _, h5⟩
  · cases he

/-- The lenient reader comes to the subject in a certificate and reads a name there. -/
lemma exists_name?_of_certificate? {e : CertificateElements} {der left : Octets} {s : Signed}
    (h : e.MakeUp der) (hr : certificate? der = some (s, left)) :
    ∃ rest left, name? (e.subject.encode ++ rest) = some (s.part.subject, left) := by
  have ht : (Tlv.sequence e.fields).Readable :=
    ⟨Tlv.known_sequence _, Tlv.Fits.of_mem h.fits List.mem_cons_self⟩
  rw [h.der_eq, ← List.append_nil (Tlv.encode _), certificate?, signed?] at hr
  obtain ⟨hc, _⟩ := eq_of_inSequence? ⟨Tlv.known_sequence _, h.fits⟩ hr
  have he : (Tlv.sequence (.sequence e.fields :: e.others)).content =
      (Tlv.sequence e.fields).encode ++ e.others.flatMap Tlv.encode :=
    rfl
  simp only [he, Option.bind_eq_bind, Option.bind_eq_some_iff] at hc
  obtain ⟨⟨part, r1⟩, hp, ⟨x, r2⟩, _, ⟨y, r3⟩, _, hs⟩ := hc
  cases hs
  obtain ⟨_, _, hf⟩ := eq_of_part? ht hp
  exact exists_name?_of_certificateFields? h hf

/-- The subject that the lenient reader finds in a certificate is the one in it, if it is an
element. -/
lemma subject_eq_of_certificate? {e : CertificateElements} {der left : Octets} {s : Signed} {u : Tlv}
    (h : e.MakeUp der) (hr : certificate? der = some (s, left))
    (hu : Tlv.decode? s.part.subject = some u) : s.part.subject = e.subject.encode := by
  have hsubject : e.subject.Readable := h.fields_readable _ (by
    simp [CertificateElements.fields, CertificateElements.afterVersion])
  obtain ⟨_, _, hname⟩ := exists_name?_of_certificate? h hr
  obtain ⟨_, _, ha⟩ := eq_of_name? hsubject hname
  exact Tlv.eq_of_decode?_of_append hsubject hu ha

end CertAuthority.Lenient
