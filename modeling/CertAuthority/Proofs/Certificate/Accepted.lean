import CertAuthority.Proofs.Certificate.Issue
import CertAuthority.Proofs.Lenient.Layout
import CertAuthority.Proofs.Rsa.Acceptance

/-!
# What passes verification

Verification is a decision on all octet strings, not only on those that an authority has made. What passes is one
SEQUENCE to the end of the octets, with a signed part, an algorithm and a signature in front, one supported algorithm
in both places, and a signature of the signed octets by an RSA key of 2048 to 4096 bits with the exponent 65537;
everything else is an integrity error (`Verify.accepted_structures`). Nothing may follow the SEQUENCE, but inside of it
anything may follow the signature, so that there are octets that pass and are no certificate
(`Verify.exists_accepted_and_not_decoded`).
-/

namespace CertAuthority

open Der

namespace Verify

variable {what : String} {der : Octets} {signer : PublicKeyInfo}
  {fields? : Octets → Option (Lenient.Algorithm × Octets)}

/-- An algorithm is supported exactly if the arcs of its identifier are those of one that is. -/
lemma algorithm?_eq_some_iff {a : Lenient.Algorithm} {algorithm : SignatureAlgorithm} :
    algorithm? a = some algorithm ↔ Lenient.arcs? a.oid = some algorithm.oid.arcs := by
  simp only [algorithm?, Option.bind_eq_bind, Option.bind_eq_some_iff]
  constructor
  · rintro ⟨arcs, harcs, hfind⟩
    have heq : algorithm.oid.arcs = arcs := by simpa using List.find?_some hfind
    rw [harcs, heq]
  · intro harcs
    refine ⟨_, harcs, ?_⟩
    cases algorithm <;> decide

/-- What octets that pass verification with a key consist of. -/
structure Evidence (fields? : Octets → Option (Lenient.Algorithm × Octets)) (der : Octets)
    (signer : PublicKeyInfo) where
  signed : Lenient.Signed
  /-- All octets are one signed structure. -/
  layout : Lenient.Layout fields? signed der
  /-- The algorithms inside and outside of the signed part are the same, with their parameters. -/
  same : signed.algorithm = signed.part.algorithm
  algorithm : SignatureAlgorithm
  /-- The identifier is that of one of the three supported algorithms. -/
  named : Lenient.arcs? signed.algorithm.oid = some algorithm.oid.arcs
  key : Rsa.PublicKey
  long : 2048 ≤ Rsa.bitLength key.modulus
  short : Rsa.bitLength key.modulus ≤ 4096
  keyAlgorithm : signer.algorithm = .withNull Oid.rsaEncryption
  /-- The key is its modulus and the exponent 65537. -/
  keyNumbers : signer.key = .ofOctets (Tlv.sequence [.ofInt key.modulus, .ofInt 65537]).encode
  /-- The signature is one of the octets of the signed part as they are. -/
  verifies : key.verify algorithm signed.part.octets signed.signature = true

/-- A structure is accepted exactly if there is evidence for it. -/
lemma structureWith_eq_ok_iff : structureWith what (Lenient.signed? fields?) der signer = .ok () ↔
    Nonempty (Evidence fields? der signer) := by
  constructor
  · intro h
    obtain ⟨s, algorithm, key, hread, hsame, hnamed, hkey, hverifies⟩ := of_structureWith h
    obtain ⟨layout⟩ := Lenient.reads_signed?.eq_some_nil_iff.1 hread
    obtain ⟨rfl, hshort⟩ := Rsa.PublicKey.ofInfo_eq_ok_iff.1 hkey
    exact ⟨s, layout, hsame, algorithm, algorithm?_eq_some_iff.1 hnamed, key, key.longEnough, hshort, rfl, rfl,
      hverifies⟩
  · rintro ⟨evidence⟩
    have hinfo : signer = evidence.key.info := by
      obtain ⟨algorithm, key⟩ := signer
      rw [PublicKeyInfo.mk.injEq]
      exact ⟨evidence.keyAlgorithm, evidence.keyNumbers⟩
    exact structureWith_eq_ok (Lenient.reads_signed?.eq_some_nil_iff.2 ⟨evidence.layout⟩) evidence.same
      (algorithm?_eq_some_iff.2 evidence.named) (Rsa.PublicKey.ofInfo_eq_ok_iff.2 ⟨hinfo, evidence.short⟩)
      evidence.verifies

/-- The error says which kind of structure does not verify. -/
def IsFailure (what : String) (e : Error) : Prop :=
  ∃ details, e = .integrity (what ++ ": " ++ details)

/-- A structure that is not accepted is reported under its name. -/
lemma structureWith_failsOnly {read? : Octets → Option (Lenient.Signed × Octets)} :
    FailsOnly (IsFailure what) (structureWith what read? der signer) := by
  have hfailure {α : Type} (details : String) :
      FailsOnly (IsFailure what) (throw (failure what details) : Except Error α) := .error ⟨details, rfl⟩
  have hsignature (s : Lenient.Signed) : FailsOnly (IsFailure what) (signature what s signer) := by
    unfold signature
    split
    · exact .bind (.mapError _ fun _ => ⟨_, rfl⟩) fun _ _ => .ite (.ok _) (hfailure _)
    · exact hfailure _
  unfold structureWith
  split
  · exact .ite (hfailure _) (.ite (hfailure _) (hsignature _))
  · exact hfailure _

/-- What passes verification is one SEQUENCE. -/
lemma Evidence.numbered?_eq (h : Evidence fields? der signer) :
    Lenient.numbered? Lenient.sequenceNumber der = some (h.layout.whole, []) :=
  (Lenient.reads_numbered? _).eq_some_nil_iff.2 h.layout.isSequence

/-- What is known of a signed structure remains known with other octets behind its signature. -/
lemma Evidence.with_unread (h : Evidence fields? der signer) {whole : Lenient.Element} {der' unread : Octets}
    (hwhole : Lenient.IsNumbered Lenient.sequenceNumber whole der')
    (hcontent : whole.content = h.layout.whole.content ++ unread) : Nonempty (Evidence fields? der' signer) := by
  have hsplit : whole.content = h.signed.part.octets ++
      (h.layout.algorithm ++ (h.layout.signature ++ (h.layout.unread ++ unread))) := by
    rw [hcontent, h.layout.content_eq]
    simp only [List.append_assoc]
  exact ⟨{ h with layout := ⟨whole, h.layout.algorithm, h.layout.signature, h.layout.unread ++ unread, hwhole, hsplit,
    h.layout.isPart, h.layout.isAlgorithm, h.layout.isSignature⟩ }⟩

/-- Whatever octets and key there are, verification decides. A certificate passes exactly if its octets, to the last
one, are a signed structure with the fields of a certificate, the algorithms inside and outside are the same and one
of those that are supported, the key is an RSA key of 2048 to 4096 bits with the exponent 65537, and the signature is
one of the signed octets by this key. A revocation list passes exactly if the same holds with its own fields. Every
failure is an integrity error. If octets pass, then with anything behind them they pass neither as a certificate nor
as a revocation list, for any key. -/
theorem accepted_structures (der : Octets) (signer : PublicKeyInfo) :
    (certificate der signer = .ok () ↔ Nonempty (Evidence Lenient.certificateFields? der signer)) ∧
    (revocationList der signer = .ok () ↔ Nonempty (Evidence Lenient.listFields? der signer)) ∧
    (∀ e, certificate der signer = .error e → IsFailure "certificate" e) ∧
    (∀ e, revocationList der signer = .error e → IsFailure "CRL" e) ∧
    (certificate der signer = .ok () ∨ revocationList der signer = .ok () → ∀ suffix : Octets, suffix ≠ [] →
      ∀ other, (∃ e, certificate (der ++ suffix) other = .error e ∧ IsFailure "certificate" e) ∧
        ∃ e, revocationList (der ++ suffix) other = .error e ∧ IsFailure "CRL" e) := by
  have hcertificate (der : Octets) (signer : PublicKeyInfo) : certificate der signer = .ok () ↔
      Nonempty (Evidence Lenient.certificateFields? der signer) := structureWith_eq_ok_iff
  have hlist (der : Octets) (signer : PublicKeyInfo) : revocationList der signer = .ok () ↔
      Nonempty (Evidence Lenient.listFields? der signer) := structureWith_eq_ok_iff
  refine ⟨hcertificate der signer, hlist der signer, structureWith_failsOnly, structureWith_failsOnly, ?_⟩
  intro haccepted suffix hsuffix other
  obtain ⟨whole, hwhole⟩ : ∃ whole, Lenient.numbered? Lenient.sequenceNumber der = some (whole, []) := by
    rw [hcertificate, hlist] at haccepted
    obtain ⟨⟨evidence⟩⟩ | ⟨⟨evidence⟩⟩ := haccepted
    · exact ⟨_, evidence.numbered?_eq⟩
    · exact ⟨_, evidence.numbered?_eq⟩
  have hrefused {fields? : Octets → Option (Lenient.Algorithm × Octets)}
      (h : Nonempty (Evidence fields? (der ++ suffix) other)) : False := by
    obtain ⟨evidence⟩ := h
    exact hsuffix ((Lenient.reads_numbered? _).eq_nil_of_append hwhole evidence.numbered?_eq)
  constructor
  · cases hresult : certificate (der ++ suffix) other with
    | ok _ => exact (hrefused ((hcertificate _ _).1 hresult)).elim
    | error e => exact ⟨e, rfl, structureWith_failsOnly e hresult⟩
  · cases hresult : revocationList (der ++ suffix) other with
    | ok _ => exact (hrefused ((hlist _ _).1 hresult)).elim
    | error e => exact ⟨e, rfl, structureWith_failsOnly e hresult⟩

/-- A certificate and an element behind its signature. -/
def extendedTlv (c : Certificate) (t : Tlv) : Tlv :=
  .sequence [c.tbs.tlv, c.algorithm.tlv, .ofBitString c.signature, t]

/-- What is put behind the signature stands at the end of the content. -/
lemma content_extendedTlv (c : Certificate) (t : Tlv) :
    (extendedTlv c t).content = c.tlv.content ++ t.encode := by
  simp [extendedTlv, Certificate.tlv, Tlv.sequence]

/-- Where a certificate passes, so do octets with an element behind the signature, though they are no certificate. -/
lemma certificate_extendedTlv {c : Certificate} {t : Tlv} (h : certificate c.tlv.encode signer = .ok ())
    (hknown : t.Known) (hfits : (extendedTlv c t).Fits) :
    certificate (extendedTlv c t).encode signer = .ok () ∧
      ∀ shortest, Certificate.decode? (extendedTlv c t).encode shortest = none := by
  have hextended : (extendedTlv c t).Readable := ⟨Tlv.known_sequence _, hfits⟩
  constructor
  · obtain ⟨evidence⟩ := structureWith_eq_ok_iff.1 h
    have hshort : c.tlv.Fits := by
      rw [Tlv.Fits, content_extendedTlv, List.length_append] at hfits
      exact Nat.le_of_add_right_le hfits
    have hread := Lenient.numbered?_sequence (t := c.tlv) ⟨c.known_tlv, hshort⟩ rfl
    have hwhole : evidence.layout.whole = Lenient.ofTlv c.tlv := by
      rw [evidence.numbered?_eq] at hread
      exact (Prod.mk.inj (Option.some.inj hread)).1
    have hreadExtended := Lenient.numbered?_sequence hextended rfl
    have hcontent : (Lenient.ofTlv (extendedTlv c t)).content = evidence.layout.whole.content ++ t.encode := by
      rw [hwhole, Lenient.content_ofTlv, Lenient.content_ofTlv, content_extendedTlv]
    have hnumbered := (Lenient.reads_numbered? _).eq_some_nil_iff.1 hreadExtended
    exact structureWith_eq_ok_iff.2 (evidence.with_unread hnumbered hcontent)
  · intro shortest
    have hinside : (extendedTlv c t).inside? Tag.sequence =
        some [c.tbs.tlv, c.algorithm.tlv, .ofBitString c.signature, t] := by
      refine Tlv.inside?_around hfits ?_
      simp only [List.forall_mem_cons]
      exact ⟨c.tbs.known_tlv, Tlv.known_sequence _, Tlv.known_ofBitString _, hknown, List.forall_mem_nil _⟩
    simp only [Certificate.decode?, Tlv.decode?_encode hextended, Certificate.ofTlv?, hinside, Option.bind_eq_bind,
      Option.bind_some]

/-- The certificate of the small authority passes with the key that signed it, and with an octet behind it it does
not. -/
theorem sample_accepted :
    ∃ cert signer, Sample.authority.issue Sample.request Sample.profile Sample.token.signingKey Sample.now
        [1, 2, 3] = .ok cert ∧
      certificate cert.der signer = .ok () ∧ Nonempty (Evidence Lenient.certificateFields? cert.der signer) ∧
      ∃ e, certificate (cert.der ++ [0]) signer = .error e ∧ IsFailure "certificate" e := by
  obtain ⟨cert, h, -⟩ := Sample.exists_issue
  obtain ⟨run⟩ := Authority.exists_issueRun h
  obtain ⟨hevidence, -, -, -, hsuffix⟩ := accepted_structures cert.der run.signerKey
  obtain ⟨hrefused, -⟩ := hsuffix (.inl run.verified) [0] nofun run.signerKey
  exact ⟨cert, run.signerKey, h, run.verified, hevidence.1 run.verified, hrefused⟩

/-- There are octets that pass and that are no certificate: NULL behind the signature is not noticed. -/
theorem exists_accepted_and_not_decoded :
    ∃ der signer, certificate der signer = .ok () ∧ Certificate.decode? der 0 = none := by
  obtain ⟨cert, hissue, hlength⟩ := Sample.exists_issue
  obtain ⟨run⟩ := Authority.exists_issueRun hissue
  have hder : cert.der = run.certificate.tlv.encode := run.der_eq
  have hpasses : certificate run.certificate.tlv.encode run.signerKey = .ok () := hder ▸ run.verified
  have hfits : (extendedTlv run.certificate Tlv.null).Fits := by
    rw [hder, Tlv.length_encode] at hlength
    have hcontent := Tlv.le_encodedLength run.certificate.tlv.content.length
    have hnull : Tlv.null.encode.length = 2 := rfl
    rw [Tlv.Fits, content_extendedTlv, List.length_append, hnull, maxLength]
    omega
  obtain ⟨haccepted, hnone⟩ := certificate_extendedTlv (t := Tlv.null) hpasses rfl hfits
  exact ⟨_, _, haccepted, hnone 0⟩

end Verify

end CertAuthority
