import CertAuthority.Proofs.Certificate.Reattach
import CertAuthority.Proofs.Certificate.Shortest
import CertAuthority.Proofs.Certificate.Validity

/-!
# Chains of certificates

A certificate that was issued can be attached to another authority, which issues again. Along such a
chain no certificate ends after one above it, and each names the one above it and its key
(`IsChain.nested_and_named`).
-/

namespace CertAuthority

open Der

/-- The second after which a certificate is not valid. -/
def Certificate.notAfter? (der : Octets) : Option Nat :=
  (decode? der 0).map fun c => c.tbs.notAfter.seconds

/-- The name of the key that a certificate gives as that of the authority. -/
def Certificate.authorityKeyId? (c : Certificate) : Option Octets := do
  let e ← (c.tbs.extensions.getD []).find? fun e => e.oid = Oid.authorityKeyIdentifier
  KeyIdentifier.authorityOfTlv? (← Tlv.decode? e.value)

/-- The values of the extensions of a certificate that can be written are short enough to be read. -/
lemma TbsCertificate.fits_of_mem_extensions {c : TbsCertificate} {e : Extension} {t : Tlv}
    (h : c.tlv.Fits) (he : e ∈ c.extensions.getD []) (ht : e.value = t.encode) : t.Fits := by
  rw [tlv_eq] at h
  refine Extension.fits_of_mem_getD 3 (fun es hes => h.of_mem ?_) he ht
  simp [fields, optionalFields, subjectFields, extensionFields, Option.mem_def.1 hes]

/-- A certificate names the key of the authority as its extensions were resolved to do. -/
lemma Certificate.authorityKeyId?_of_resolve {c : ExtensionContext} {cert : Certificate}
    (hf : cert.tbs.tlv.Fits) (h : c.resolve = .ok (cert.tbs.extensions.getD []))
    (huse : c.profile.useAuthorityKeyIdentifier = true) :
    cert.authorityKeyId? = some c.authorityKeyId := by
  have hsource : c.authorityKeyIdentifier = .ok (some (KeyIdentifier.authority
      c.profile.authorityKeyIdentifierCritical c.authorityKeyId)) := by
    rw [ExtensionContext.authorityKeyIdentifier, huse]
    rfl
  have hmem : c.authorityKeyIdentifier ∈ c.sources := by simp [ExtensionContext.sources]
  rw [hsource] at hmem
  have hfound : (cert.tbs.extensions.getD []).find? (fun e => e.oid = Oid.authorityKeyIdentifier) =
      some _ := (ExtensionContext.find?_eq_some_iff_of_resolve h).2 ⟨hmem, rfl⟩
  have hfits : (KeyIdentifier.authorityTlv c.authorityKeyId).Fits :=
    TbsCertificate.fits_of_mem_extensions hf ((ExtensionContext.mem_of_resolve h).2 hmem) rfl
  have hvalue : Tlv.decode? (KeyIdentifier.authorityTlv c.authorityKeyId).encode = some _ :=
    Tlv.decode?_encode ⟨Tlv.known_sequence _, hfits⟩
  rw [authorityKeyId?, hfound]
  simp only [KeyIdentifier.authority, Extension.ofElement, Option.bind_eq_bind, Option.bind_some, hvalue,
    KeyIdentifier.authorityOfTlv?_authorityTlv hfits]

/-- The first subject key identifier among extensions. -/
def Extension.subjectKeyIdentifier? (es : List Extension) : Option Extension :=
  es.find? fun e => e.oid = Oid.subjectKeyIdentifier

/-- The name that is read from a subject key identifier is the content of its value. -/
lemma IssuerCertificate.of_subjectKeyId? {es : List Extension} {id : Option Octets}
    (h : subjectKeyId? es = .ok id) (other : Octets) :
    (Extension.subjectKeyIdentifier? es = none → id.getD other = other) ∧
      ∀ e, Extension.subjectKeyIdentifier? es = some e →
        e.value = (Tlv.ofOctets (id.getD other)).encode := by
  unfold subjectKeyId? at h
  cases hf : Extension.subjectKeyIdentifier? es with
  | none =>
    rw [Extension.subjectKeyIdentifier?] at hf
    rw [hf] at h
    cases h
    exact ⟨fun _ => rfl, nofun⟩
  | some found =>
    refine ⟨nofun, fun e he => ?_⟩
    cases he
    rw [Extension.subjectKeyIdentifier?] at hf
    simp only [hf] at h
    split at h
    · rename_i octets hvalue
      cases h
      -- The value decodes to an element of octets, and an element is written as it was read.
      obtain ⟨t, ht, hoctets⟩ := Option.bind_eq_some_iff.1 hvalue
      rw [(Tlv.eq_of_decode? ht).1, Option.getD_some]
      rw [KeyIdentifier.subjectOfTlv?, Tlv.toOctets?, Tlv.content?] at hoctets
      split at hoctets
      · rename_i htag
        cases hoctets
        rw [Tlv.ofOctets, ← htag]
      · cases hoctets
    · cases h

/-- A certificate that was issued, with everything that it was issued from. -/
structure Issuance where
  ca : Authority
  request : Request
  p : ResolvedProfile
  key : SigningKey
  now : Nat
  drawn : Octets
  cert : IssuedCertificate
  issued : ca.issue request p key now drawn = .ok cert

/-- The second of two certificates does not end after the first. -/
def EndsWithin (above below : Octets) : Prop :=
  ∃ m n, Certificate.notAfter? above = some m ∧ Certificate.notAfter? below = some n ∧ n ≤ m

/-- Ends that come in order down a chain are in order from its top to its bottom. -/
lemma EndsWithin.trans {a b c : Octets} (hab : EndsWithin a b) (hbc : EndsWithin b c) :
    EndsWithin a c := by
  obtain ⟨l, m, hl, hm, hml⟩ := hab
  obtain ⟨m', n, hm', hn, hnm⟩ := hbc
  obtain rfl : m = m' := Option.some.inj (hm.symm.trans hm')
  exact ⟨l, n, hl, hn, Nat.le_trans hnm hml⟩

namespace Issuance

/-- The certificate is not one of a root, and the authority that issued it had attached the certificate of
the given octets. -/
def Below (i : Issuance) (der : Octets) : Prop :=
  i.p.profile.kind ≠ .rootCa ∧
    ∃ before after : Authority, before.attach der = .ok after ∧ i.ca.certificate = after.certificate

/-- The certificate names the one of the given octets as that of its issuer, and the name that it gives the
key of the issuer is the one in that certificate, or else the hash of the key that signed. -/
structure IsNamedBy (i : Issuance) (der : Octets) : Prop where
  issuer : ∃ octets, Certificate.subjectOctets? der = some octets ∧
    Certificate.issuerOctets? i.cert.der = some octets
  authorityKey : i.p.profile.useAuthorityKeyIdentifier = true →
    ∃ c d signer id, Certificate.decode? der 0 = some c ∧
      Certificate.decode? i.cert.der 0 = some d ∧ d.authorityKeyId? = some id ∧
      i.key.publicKey .certSign = .ok signer ∧ Verify.certificate i.cert.der signer = .ok () ∧
      let found := Extension.subjectKeyIdentifier? (c.tbs.extensions.getD [])
      (found = none → id = Hash.Sha1.hash signer.key.octets) ∧
        ∀ e, found = some e → e.value = (Tlv.ofOctets id).encode

/-- A certificate below another one does not end after it. -/
lemma Below.endsWithin {i : Issuance} {der : Octets} (h : i.Below der) : EndsWithin der i.cert.der := by
  obtain ⟨hkind, before, after, hattach, hcertificate⟩ := h
  obtain ⟨ic, hi, hc⟩ := Authority.certificate_of_attach hattach
  obtain ⟨_, c, _, _, _, -, hd, -, -, -, -, rfl⟩ := IssuerCertificate.inspect_eq_ok_iff.1 hi
  obtain ⟨run⟩ := Authority.exists_issueRun i.issued
  obtain ⟨parts, hp⟩ := Authority.exists_isPrepared run.tbs_eq
  have habove : Certificate.notAfter? der = some c.tbs.notAfter.seconds := by
    rw [Certificate.notAfter?, Certificate.decode?_of_le (Nat.zero_le _) hd]
    rfl
  have hbelow : Certificate.notAfter? i.cert.der = some i.cert.notAfter := by
    rw [Certificate.notAfter?, run.decode?_zero]
    exact congrArg some hp.notAfter
  refine ⟨_, _, habove, hbelow, ?_⟩
  -- the certificate above is the limit under which the validity was chosen
  have hwindow := run.window_eq
  rw [hcertificate.trans hc, Option.map_some, Validity.resolve_of_limit hkind] at hwindow
  split at hwindow
  · cases hwindow
  · rename_i hstart
    have hend : max (min _ c.tbs.notAfter.seconds) _ = i.cert.notAfter :=
      congrArg Validity.notAfter (Except.ok.inj hwindow)
    rw [← hend]
    exact Nat.max_le.2 ⟨Nat.min_le_right _ _, Nat.le_of_not_le hstart⟩

/-- A certificate below another one names it and its key. -/
lemma Below.isNamedBy {i : Issuance} {der : Octets} (h : i.Below der) : i.IsNamedBy der := by
  obtain ⟨hkind, before, after, hattach, hcertificate⟩ := h
  obtain ⟨ic, hi, hc⟩ := Authority.certificate_of_attach hattach
  have hca : i.ca.certificate = some ic := hcertificate.trans hc
  have hsubject := IssuerCertificate.subjectOctets?_of_inspect hi
  obtain ⟨run⟩ := Authority.exists_issueRun i.issued
  obtain ⟨parts, hp⟩ := Authority.exists_isPrepared run.tbs_eq
  refine ⟨⟨_, hsubject, ?_⟩, fun huse => ?_⟩
  · rw [run.issuerOctets?_eq, hp.issuer, Authority.issuer_of_certificate hca parts.issuer_eq]
  · obtain ⟨_, c, _, _, id, -, hd, -, -, -, hid, rfl⟩ := IssuerCertificate.inspect_eq_ok_iff.1 hi
    have hnamed : run.certificate.authorityKeyId? = some _ :=
      Certificate.authorityKeyId?_of_resolve run.tbs_fits (hp.getD_extensions ▸ parts.extensions_eq) huse
    rw [ExtensionContext.authorityKeyId, hca, if_neg hkind, Option.bind_some] at hnamed
    exact ⟨c, run.certificate, run.signerKey, _, Certificate.decode?_of_le (Nat.zero_le _) hd,
      run.decode?_zero, hnamed, run.signerKey_eq, run.verified,
      IssuerCertificate.of_subjectKeyId? hid _⟩

end Issuance

/-- Each certificate of a chain was issued by an authority that had attached the one above it; the first is
below the certificate of the given octets. -/
inductive IsChain : Octets → List Issuance → Prop where
  | nil {der : Octets} : IsChain der []
  | cons {der : Octets} {i : Issuance} {rest : List Issuance} :
    i.Below der → IsChain i.cert.der rest → IsChain der (i :: rest)

/-- Along a chain of certificates of any length no certificate ends after one above it, and each names the
one above it: the octets of its issuer are those of the subject above, and the name of the authority's key
is the one that the certificate above has, or the hash of the key that signed if it has none. -/
theorem IsChain.nested_and_named {der : Octets} {chain : List Issuance} (h : IsChain der chain) :
    (der :: chain.map fun i => i.cert.der).Pairwise EndsWithin ∧
      ∀ above i, (above, i) ∈ (der :: chain.map fun i => i.cert.der).zip chain →
        i.IsNamedBy above := by
  induction h with
  | nil =>
    refine ⟨List.pairwise_singleton _ _, fun above i hi => ?_⟩
    rw [List.zip_nil_right] at hi
    exact absurd hi List.not_mem_nil
  | @cons der i rest below chain ih =>
    have hwithin := below.endsWithin
    obtain ⟨ihwithin, ihnamed⟩ := ih
    refine ⟨?_, ?_⟩
    · rw [List.map_cons, List.pairwise_cons]
      refine ⟨fun lower hlower => ?_, ihwithin⟩
      cases List.mem_cons.1 hlower with
      | inl heq => exact heq ▸ hwithin
      | inr hrest => exact hwithin.trans (List.rel_of_pairwise_cons ihwithin hrest)
    · intro above j hj
      rw [List.map_cons, List.zip_cons_cons] at hj
      cases List.mem_cons.1 hj with
      | inl heq =>
        cases heq
        exact below.isNamedBy
      | inr hrest => exact ihnamed above j hrest

namespace Sample

/-- The small profile, with the names of the keys of the authority and of the subject. -/
def keyNamingProfile : ResolvedProfile :=
  { profile with profile := { profile.profile with
      useAuthorityKeyIdentifier := true
      useSubjectKeyIdentifier := true } }

/-- Two certificates that name keys can be issued below one that the small authority has issued. -/
lemma isOk_below :
    (do
      let top ← authority.issue request profile token.signingKey now [1]
      let attached ← authority.attach top.der
      let middle ← attached.issue request keyNamingProfile token.signingKey now [2]
      let attachedMiddle ← authority.attach middle.der
      attachedMiddle.issue request keyNamingProfile token.signingKey now [3]).isOk = true := by
  decide +kernel

end Sample

/-- A chain of two certificates below a third. The first of all does not name its key, the second does. -/
theorem IsChain.exists_sample :
    ∃ der i j, IsChain der [i, j] ∧ i.p.profile.useAuthorityKeyIdentifier = true ∧
      j.p.profile.useAuthorityKeyIdentifier = true ∧ EndsWithin der i.cert.der ∧
      EndsWithin i.cert.der j.cert.der ∧ EndsWithin der j.cert.der ∧ i.IsNamedBy der ∧
      j.IsNamedBy i.cert.der := by
  obtain ⟨cert, h⟩ := exists_of_isOk Sample.isOk_below
  simp only [bind_eq_ok_iff] at h
  obtain ⟨top, -, attached, hattached, middle, hmiddle, attachedMiddle, hattachedMiddle, hcert⟩ := h
  let i : Issuance := ⟨attached, _, _, _, _, _, middle, hmiddle⟩
  let j : Issuance := ⟨attachedMiddle, _, _, _, _, _, cert, hcert⟩
  have below : i.Below top.der := ⟨nofun, _, _, hattached, rfl⟩
  have belowMiddle : j.Below middle.der := ⟨nofun, _, _, hattachedMiddle, rfl⟩
  have chain : IsChain top.der [i, j] := .cons below (.cons belowMiddle .nil)
  obtain ⟨within, named⟩ := chain.nested_and_named
  simp only [List.map_cons, List.map_nil, List.pairwise_cons, List.forall_mem_cons] at within
  obtain ⟨⟨toMiddle, toBottom, -⟩, ⟨fromMiddle, -⟩, -⟩ := within
  refine ⟨top.der, i, j, chain, rfl, rfl, toMiddle, fromMiddle, toBottom, ?_, ?_⟩
  · exact named _ _ List.mem_cons_self
  · exact named _ _ (List.mem_cons_of_mem _ List.mem_cons_self)

end CertAuthority
