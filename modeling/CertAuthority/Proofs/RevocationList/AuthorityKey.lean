import CertAuthority.Proofs.Certificate.Chain
import CertAuthority.Proofs.Name.Encoded
import CertAuthority.Proofs.RevocationList.Contents

/-!
# The authority's key in certificates and revocation lists

A certificate takes the name of the authority's key over from the certificate of the authority, if that has
one, while a revocation list always has the hash of the key that signs it. Where one key signs both, they name
it alike exactly if the certificate of the authority has this hash or no name (`Issuance.Below.named_alike_iff`).
-/

namespace CertAuthority

open Der

/-- The extensions of a revocation list, whatever its entries are. -/
def RevocationList.extensions? (der : Octets) : Option (List Extension) := do
  match (← signedFields? der).find? fun t => t.tag = Tag.contextConstructed 0 with
  | none => some []
  | some field => Extension.listOfTlv? (← field.explicit? 0) 0

/-- The name of the key that a revocation list gives as that of the authority. -/
def RevocationList.authorityKeyId? (der : Octets) : Option Octets := do
  let e ← (← extensions? der).find? fun e => e.oid = Oid.authorityKeyIdentifier
  e.authorityKey?

/-- Of the fields of a revocation list only the extensions have a number. -/
lemma TbsRevocationList.find?_fields (l : TbsRevocationList) :
    l.fields.find? (fun t => t.tag = Tag.contextConstructed 0) =
      l.extensions.map fun es => .explicit 0 (Extension.listTlv es) := by
  have htime (t : Timestamp) : t.tlv.tag ≠ Tag.contextConstructed 0 := by
    intro htag
    have htest := isTime_tlv t
    rw [isTime, htag] at htest
    revert htest
    decide
  have hinteger : Tag.integer ≠ Tag.contextConstructed 0 := by decide
  have hsequence : Tag.sequence ≠ Tag.contextConstructed 0 := by decide
  have hother : ∀ t ∈ [.ofInt l.version, l.signature.tlv, l.issuer.tlv, l.thisUpdate.tlv] ++
      l.nextUpdate.toList.map Timestamp.tlv ++ l.revoked.toList.map entriesTlv,
      ¬ decide (t.tag = Tag.contextConstructed 0) = true := by
    simp only [List.mem_append, List.mem_cons, List.not_mem_nil, or_false, List.mem_map, decide_eq_true_eq]
    rintro t (((rfl | rfl | rfl | rfl) | ⟨next, -, rfl⟩) | ⟨entries, -, rfl⟩)
    · exact hinteger
    · exact hsequence
    · exact hsequence
    · exact htime _
    · exact htime _
    · exact hsequence
  have hfields : l.fields = [.ofInt l.version, l.signature.tlv, l.issuer.tlv, l.thisUpdate.tlv] ++
      l.nextUpdate.toList.map Timestamp.tlv ++ l.revoked.toList.map entriesTlv ++ l.extensionFields := by
    simp [fields, optionalFields, revokedFields]
  rw [hfields, List.find?_append, List.find?_eq_none.2 hother, Option.none_or, extensionFields]
  cases l.extensions with
  | none => rfl
  | some es => rfl

namespace Authority

variable {ca : Authority} {entries : List RevocationEntry} {number now : Nat} {key : SigningKey}
  {list : IssuedRevocationList}

/-- The extensions that are read from a revocation list are those of its signed part. -/
lemma ListRun.extensions?_eq (run : ListRun ca entries number key now list) :
    RevocationList.extensions? list.der = some (run.tbs.extensions.getD []) := by
  have hf := run.fits
  have htbs := run.tbs_fits
  rw [RevocationList.tlv, TbsRevocationList.tlv_eq] at hf
  rw [TbsRevocationList.tlv_eq] at htbs
  have hfields : signedFields? list.der = some run.tbs.fields := by
    rw [run.der_eq, RevocationList.tlv, TbsRevocationList.tlv_eq]
    exact signedFields?_encode hf (fun t ht => TbsRevocationList.known_of_mem_fields ht) (by simp)
  rw [RevocationList.extensions?, hfields, Option.bind_eq_bind, Option.bind_some,
    TbsRevocationList.find?_fields]
  cases hes : run.tbs.extensions with
  | none => rfl
  | some es =>
    have hfield : (Tlv.explicit 0 (Extension.listTlv es)).Fits := htbs.of_mem (by
      simp [TbsRevocationList.fields, TbsRevocationList.optionalFields, TbsRevocationList.revokedFields,
        TbsRevocationList.extensionFields, hes])
    have hlist : (Extension.listTlv es).Fits := hfield.of_mem List.mem_cons_self
    simp only [Option.map_some, Tlv.explicit?_explicit hfield (Extension.known_listTlv es)]
    exact (Extension.listOfTlv?_listTlv_iff hlist).2 ⟨rfl, fun _ _ => Nat.zero_le _⟩

/-- A revocation list names the key that signs it by its hash. -/
lemma ListRun.authorityKeyId?_eq (run : ListRun ca entries number key now list)
    (huse : ca.useAuthorityKeyIdentifier = true) :
    RevocationList.authorityKeyId? list.der = some (Hash.Sha1.hash run.signerKey.key.octets) := by
  have hintended := run.isIntended_revocationList
  obtain ⟨e, he⟩ := Option.isSome_iff_exists.1 (hintended.hasAuthorityKey.trans huse)
  have hfound : (run.tbs.extensions.getD []).find? (fun e => e.oid = Oid.authorityKeyIdentifier) = some e := he
  rw [RevocationList.authorityKeyId?, run.extensions?_eq, Option.bind_eq_bind, Option.bind_some, hfound]
  exact hintended.authorityKey e he

end Authority

/-- Octet strings of which one can be read are the same if they are written alike. -/
lemma Der.Tlv.eq_of_encode_ofOctets {as bs : Octets} (hb : (ofOctets bs).Fits)
    (h : (ofOctets as).encode = (ofOctets bs).encode) : as = bs := by
  have hread : decode? (ofOctets as).encode = some (ofOctets bs) := by
    rw [h]
    exact decode?_encode ⟨known_ofOctets bs, hb⟩
  have ha : (ofOctets as).Fits := fits_of_decode?_encode hread
  have hsame := (encode_inj ⟨known_ofOctets as, ha⟩ ⟨known_ofOctets bs, hb⟩).1 h
  exact congrArg content hsame

namespace Issuance

/-- A revocation list beside a certificate: one authority issues both, one key signs both, and both name the key
of the authority. -/
structure IsBeside (i : Issuance) (list : IssuedRevocationList) : Prop where
  issued : ∃ entries number now, i.ca.issueRevocationList entries number i.key now = .ok list
  sameKey : i.key.publicKey .certSign = i.key.publicKey .crlSign
  named : i.p.profile.useAuthorityKeyIdentifier = true
  namedInList : i.ca.useAuthorityKeyIdentifier = true

/-- Under an attached certificate, a certificate takes the name of the authority's key over from there, if the
attached certificate has one, while a revocation list beside it has the hash of the key that signs both. They
name the key alike exactly if the attached certificate has this hash or no name. -/
theorem Below.named_alike_iff {i : Issuance} {der : Octets} {list : IssuedRevocationList} (h : i.Below der)
    (hbeside : i.IsBeside list) :
    ∃ attached issued signer id, Certificate.decode? der 0 = some attached ∧
      Certificate.decode? i.cert.der 0 = some issued ∧ i.key.publicKey .crlSign = .ok signer ∧
      issued.authorityKeyId? = some id ∧
      RevocationList.authorityKeyId? list.der = some (Hash.Sha1.hash signer.key.octets) ∧
      let found := Extension.subjectKeyIdentifier? (attached.tbs.extensions.getD [])
      (found = none → id = Hash.Sha1.hash signer.key.octets) ∧
        (∀ e, found = some e → e.value = (Tlv.ofOctets id).encode) ∧
        (id = Hash.Sha1.hash signer.key.octets ↔
          ∀ e, found = some e → e.value = (Tlv.ofOctets (Hash.Sha1.hash signer.key.octets)).encode) := by
  obtain ⟨attached, issued, signer, id, hattached, hissued, hid, hsigner, -, hnone, hsome⟩ :=
    h.isNamedBy.authorityKey hbeside.named
  rw [hbeside.sameKey] at hsigner
  obtain ⟨entries, number, now, hlist⟩ := hbeside.issued
  obtain ⟨run⟩ := Authority.exists_listRun hlist
  have hnamed := run.authorityKeyId?_eq hbeside.namedInList
  rw [Except.ok.inj (run.signerKey_eq.symm.trans hsigner)] at hnamed
  -- A hash is short enough to be written, so its octets can be read off the value of the extension.
  have hfits : (Tlv.ofOctets (Hash.Sha1.hash signer.key.octets)).Fits := by
    have hlength : (Hash.Sha1.hash signer.key.octets).length = 20 := signer.length_keyIdentifier
    rw [Tlv.Fits, Tlv.ofOctets, hlength]
    decide
  refine ⟨attached, issued, signer, id, hattached, hissued, hsigner, hid, hnamed, hnone, hsome, ?_⟩
  constructor
  · rintro rfl
    exact hsome
  · intro hhash
    cases hfound : Extension.subjectKeyIdentifier? (attached.tbs.extensions.getD []) with
    | none => exact hnone hfound
    | some e =>
      have hwritten := (hsome e hfound).symm.trans (hhash e hfound)
      exact Tlv.eq_of_encode_ofOctets hfits hwritten

end Issuance

namespace Sample

/-- The small profile, under which a plugin names the key of the subject by the given octets. -/
def namingProfile (id : Octets) : ResolvedProfile :=
  { profile with plugins :=
      [⟨Oid.subjectKeyIdentifier, false, fun _ _ _ => .ok (KeyIdentifier.subjectTlv id).encode⟩] }

/-- The small profile, with the name of the key of the authority. -/
def keyedProfile : ResolvedProfile :=
  { profile with profile := { profile.profile with useAuthorityKeyIdentifier := true } }

/-- A certificate and a revocation list beside it, under a certificate that names its key by the given octets. -/
def issuedBeside (id : Octets) : Except Error (Octets × IssuedCertificate × IssuedRevocationList) := do
  let top ← authority.issue request (namingProfile id) token.signingKey now [1]
  let attached ← authority.attach top.der
  let cert ← attached.issue request keyedProfile token.signingKey now [2]
  let list ← attached.issueRevocationList [] 7 token.signingKey now
  return (top.der, cert, list)

/-- There is a certificate below one that names its key by three octets, and a revocation list beside it. -/
lemma exists_beside :
    ∃ (i : Issuance) (der : Octets) (list : IssuedRevocationList), i.Below der ∧ i.IsBeside list ∧
      (Certificate.decode? i.cert.der 0).bind Certificate.authorityKeyId? = some [0xAA, 0xBB, 0xCC] := by
  have hissued : (do
      let (_, cert, _) ← issuedBeside [0xAA, 0xBB, 0xCC]
      return (Certificate.decode? cert.der 0).bind Certificate.authorityKeyId?) =
      .ok (some [0xAA, 0xBB, 0xCC]) := by
    decide +kernel
  simp only [issuedBeside, bind_eq_ok_iff, pure_eq_ok_iff] at hissued
  obtain ⟨_, ⟨top, -, attached, hattached, cert, hcert, list, hlist, rfl⟩, hnamed⟩ := hissued
  have hnamedInList : attached.useAuthorityKeyIdentifier = true := by
    obtain ⟨ic, -, hic⟩ := bind_eq_ok_iff.1 hattached
    cases hic
    rfl
  exact ⟨⟨attached, _, _, _, _, _, cert, hcert⟩, top.der, list, ⟨nofun, _, _, hattached, rfl⟩,
    ⟨⟨_, _, _, hlist⟩, rfl, rfl, hnamedInList⟩, hnamed⟩

end Sample

namespace Issuance

/-- A certificate that takes over three octets and a revocation list that has a hash beside it. -/
theorem Below.sample_named :
    ∃ (i : Issuance) (der : Octets) (list : IssuedRevocationList) (attached : Certificate) (e : Extension)
      (hash : Octets), i.Below der ∧ i.IsBeside list ∧ Certificate.decode? der 0 = some attached ∧
      Extension.subjectKeyIdentifier? (attached.tbs.extensions.getD []) = some e ∧
      e.value = (Tlv.ofOctets [0xAA, 0xBB, 0xCC]).encode ∧
      RevocationList.authorityKeyId? list.der = some hash ∧ hash.length = 20 := by
  obtain ⟨i, der, list, below, beside, hcert⟩ := Sample.exists_beside
  obtain ⟨attached, issued, signer, id, hattached, hissued, -, hid, hnamed, hnone, hsome, -⟩ :=
    below.named_alike_iff beside
  have hlength : (Hash.Sha1.hash signer.key.octets).length = 20 := signer.length_keyIdentifier
  rw [hissued, Option.bind_some, hid, Option.some.injEq] at hcert
  subst hcert
  cases hfound : Extension.subjectKeyIdentifier? (attached.tbs.extensions.getD []) with
  | none =>
    rw [← hnone hfound] at hlength
    contradiction
  | some e => exact ⟨i, der, list, attached, e, _, below, beside, hattached, hfound, hsome e hfound, hnamed, hlength⟩

/-- A certificate and a revocation list beside it that name the key of the authority differently, though one key
signs both. -/
theorem Below.exists_named_differently :
    ∃ (i : Issuance) (der : Octets) (list : IssuedRevocationList), i.Below der ∧ i.IsBeside list ∧
      (Certificate.decode? i.cert.der 0).bind Certificate.authorityKeyId? ≠
        RevocationList.authorityKeyId? list.der := by
  obtain ⟨i, der, list, below, beside, hcert⟩ := Sample.exists_beside
  obtain ⟨entries, number, now, hlist⟩ := beside.issued
  obtain ⟨run⟩ := Authority.exists_listRun hlist
  refine ⟨i, der, list, below, beside, ?_⟩
  have hlength : (Hash.Sha1.hash run.signerKey.key.octets).length = 20 := run.signerKey.length_keyIdentifier
  rw [hcert, run.authorityKeyId?_eq beside.namedInList]
  intro hsame
  rw [← Option.some.inj hsame] at hlength
  contradiction

end Issuance

end CertAuthority
