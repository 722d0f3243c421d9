import CertAuthority.Proofs.Certificate.Reattach
import CertAuthority.Proofs.Time.Shown

/-!
# Times are kept

A second up to the end of the year 9999 has a form, and no later one has. The form shows the calendar time that is
reached by counting on from the first second of 1970, and it is read again as the same second, so times keep their
order whichever of the two forms they have, and the end of a certificate is what it was set to when the certificate
is attached (`Timestamp.times_are_kept`).
-/

namespace CertAuthority

open Der

namespace Timestamp

variable {s : Nat} {t : Timestamp}

/-- A second has a form exactly if it is not after the last one. -/
lemma exists_ofSeconds_iff : (∃ t, ofSeconds s = .ok t) ↔ s ≤ lastSecond := by
  unfold ofSeconds
  split
  · rename_i h
    exact ⟨fun _ => h, fun _ => ⟨_, rfl⟩⟩
  · rename_i h
    constructor
    · rintro ⟨t, ht⟩
      cases ht
    · intro hle
      exact absurd hle h

/-- The form has two digits of the year exactly before the limit. -/
lemma tag_tlv_eq_utcTime_iff : t.tlv.tag = Tag.utcTime ↔ t.seconds < utcTimeLimit := by
  unfold tlv form
  split
  · rename_i h
    exact ⟨fun _ => h, fun _ => rfl⟩
  · rename_i h
    have hne : Tag.generalizedTime ≠ Tag.utcTime := by decide
    exact ⟨fun ht => absurd ht hne, fun hlt => absurd hlt h⟩

/-- The form of a time is short enough to be read. -/
lemma fits_tlv (t : Timestamp) : t.tlv.Fits := by
  have hlength : t.tlv.content.length ≤ 15 := by
    unfold tlv form afterYear
    split <;> simp only [List.length_append, digits, List.length_map, List.length_range, List.length_cons,
      List.length_nil] <;> omega
  exact Nat.le_trans hlength (by decide)

/-- A valid calendar time is shown by the form of a time exactly if it is that of its second. -/
lemma shows_tlv_iff {c : Civil} (hc : c.isValid = true) :
    Shows t.tlv c ↔ c = Civil.next^[t.seconds] Civil.epoch := by
  rw [← Civil.ofSeconds_eq_iterate]
  constructor
  · intro h
    exact h.unique (shows_tlv t) (Civil.isShort_of_isValid hc)
      (Civil.isShort_of_isValid (Civil.isValid_ofSeconds _))
  · rintro rfl
    exact shows_tlv t

end Timestamp

namespace Authority

variable {ca other attached : Authority} {request : Request} {p : ResolvedProfile} {key : SigningKey} {now : Nat}
  {drawn : Octets} {cert : IssuedCertificate}

/-- The end of its validity that was set is in a certificate that was issued. -/
lemma exists_decode?_of_issue (h : ca.issue request p key now drawn = .ok cert) :
    Validity.resolve now request p.profile (ca.certificate.map (·.notAfter)) =
        .ok ⟨cert.notBefore, cert.notAfter⟩ ∧
      ∃ d, Certificate.decode? cert.der 0 = some d ∧ d.tbs.notAfter.seconds = cert.notAfter := by
  obtain ⟨run⟩ := exists_issueRun h
  obtain ⟨parts, hparts⟩ := exists_isPrepared run.tbs_eq
  exact ⟨run.window_eq, run.certificate, run.decode?_zero, hparts.notAfter⟩

/-- The end that is read when a certificate that was issued is attached is the one that was set. -/
lemma notAfter_of_attach (h : ca.issue request p key now drawn = .ok cert)
    (ha : other.attach cert.der = .ok attached) : ∃ ic, attached.certificate = some ic ∧ ic.notAfter = cert.notAfter := by
  obtain ⟨run⟩ := exists_issueRun h
  obtain ⟨parts, hparts⟩ := exists_isPrepared run.tbs_eq
  obtain ⟨ic, hi, hc⟩ := certificate_of_attach ha
  obtain ⟨signed, d, u, subject, id, -, hd, -, -, -, -, rfl⟩ := IssuerCertificate.inspect_eq_ok_iff.1 hi
  obtain ⟨rfl, -⟩ := run.decode?_eq_some_iff.1 hd
  exact ⟨_, hc, hparts.notAfter⟩

end Authority

/-- A time has a form exactly up to the last second of the year 9999, and with two digits of the year exactly before
the year 2050. The form shows the second's calendar time, counted on from the first second of 1970, and no other, and
it is read again as that second; so times are in order as their calendar times are. The end of a certificate that was
issued is read as it was set, also when the certificate is attached to an authority. -/
theorem Timestamp.times_are_kept :
    (∀ s, (∃ t, ofSeconds s = .ok t) ↔ s ≤ Civil.toSeconds ⟨9999, 12, 31, 23, 59, 59⟩) ∧
    (∀ s, Civil.toSeconds ⟨9999, 12, 31, 23, 59, 59⟩ < s → ofSeconds s = .error .der) ∧
    (∀ s t, ofSeconds s = .ok t →
      (t.tlv.tag = Tag.utcTime ↔ s < Civil.toSeconds ⟨2050, 1, 1, 0, 0, 0⟩) ∧
      (∀ c : Civil, c.isValid = true → (Shows t.tlv c ↔ c = Civil.next^[s] Civil.epoch)) ∧
      ((Tlv.decode? t.tlv.encode).bind ofTlv?).map seconds = some s) ∧
    (∀ s s' t t', ofSeconds s = .ok t → ofSeconds s' = .ok t' → ∀ c d : Civil, c.isValid = true → d.isValid = true →
      Shows t.tlv c → Shows t'.tlv d → (c.number < d.number ↔ s < s')) ∧
    ∀ (ca : Authority) request p key now drawn cert, ca.issue request p key now drawn = .ok cert →
      Validity.resolve now request p.profile (ca.certificate.map (·.notAfter)) =
        .ok ⟨cert.notBefore, cert.notAfter⟩ ∧
      (Certificate.decode? cert.der 0).map (·.tbs.notAfter.seconds) = some cert.notAfter ∧
      ∀ other attached : Authority, other.attach cert.der = .ok attached →
        attached.certificate.map (·.notAfter) = some cert.notAfter := by
  have hlast : Civil.toSeconds ⟨9999, 12, 31, 23, 59, 59⟩ = lastSecond := by decide +kernel
  have hlimit : Civil.toSeconds ⟨2050, 1, 1, 0, 0, 0⟩ = utcTimeLimit := by decide +kernel
  rw [hlast, hlimit]
  refine ⟨fun s => exists_ofSeconds_iff, fun s hs => dif_neg (Nat.not_le.2 hs), fun s t ht => ?_,
    fun s s' t t' ht ht' c d hc hd hshows hshows' => ?_, fun ca request p key now drawn cert h => ?_⟩
  · obtain rfl := Authority.eq_of_ofSeconds ht
    have hdecode : Tlv.decode? t.tlv.encode = some t.tlv := Tlv.decode?_encode ⟨known_tlv t, fits_tlv t⟩
    refine ⟨tag_tlv_eq_utcTime_iff, fun c hc => shows_tlv_iff hc, ?_⟩
    rw [hdecode, Option.bind_some, ofTlv?_tlv, Option.map_some]
  · obtain rfl := Authority.eq_of_ofSeconds ht
    obtain rfl := Authority.eq_of_ofSeconds ht'
    -- Calendar times are ordered as the seconds that count up to them.
    rw [Civil.number_lt_iff hc hd, (shows_tlv_iff hc).1 hshows, (shows_tlv_iff hd).1 hshows',
      ← Civil.ofSeconds_eq_iterate, ← Civil.ofSeconds_eq_iterate, Civil.toSeconds_ofSeconds,
      Civil.toSeconds_ofSeconds]
  · obtain ⟨hwindow, d, hd, hnotAfter⟩ := Authority.exists_decode?_of_issue h
    refine ⟨hwindow, ?_, fun other attached ha => ?_⟩
    · rw [hd, Option.map_some, hnotAfter]
    · obtain ⟨ic, hic, hnotAfter⟩ := Authority.notAfter_of_attach h ha
      rw [hic, Option.map_some, hnotAfter]

/-- The last second with two digits of the year and the next one, and the end of the certificate of a small
authority. -/
theorem Timestamp.sample_times :
    ∃ t t', ofSeconds 2524607999 = .ok t ∧ ofSeconds 2524608000 = .ok t' ∧
      t.tlv.tag = Tag.utcTime ∧ t'.tlv.tag ≠ Tag.utcTime ∧
      (∀ c d : Civil, c.isValid = true → d.isValid = true → Shows t.tlv c → Shows t'.tlv d → c.number < d.number) ∧
      ∃ cert attached, Sample.authority.issue Sample.request Sample.profile Sample.token.signingKey Sample.now
          [1, 2, 3] = .ok cert ∧
        Sample.authority.attach cert.der = .ok attached ∧
        attached.certificate.map (·.notAfter) = some cert.notAfter := by
  obtain ⟨hform, -, hkept, horder, hissue⟩ := times_are_kept
  have hlast : 2524608000 ≤ Civil.toSeconds ⟨9999, 12, 31, 23, 59, 59⟩ := by decide +kernel
  have hlimit : Civil.toSeconds ⟨2050, 1, 1, 0, 0, 0⟩ = 2524608000 := by decide +kernel
  obtain ⟨t, ht⟩ := (hform 2524607999).2 (by omega)
  obtain ⟨t', ht'⟩ := (hform 2524608000).2 hlast
  have htag := (hkept _ t ht).1.2 (by omega)
  have htag' := mt (hkept _ t' ht').1.1 (by omega)
  obtain ⟨_, h⟩ := exists_of_isOk Authority.isOk_attach
  simp only [bind_eq_ok_iff] at h
  obtain ⟨cert, hcert, attached, ha, -⟩ := h
  refine ⟨t, t', ht, ht', htag, htag', fun c d hc hd hshows hshows' => ?_, cert, attached, hcert, ha, ?_⟩
  · exact (horder _ _ t t' ht ht' c d hc hd hshows hshows').2 (by decide)
  · exact (hissue _ _ _ _ _ _ cert hcert).2.2 _ attached ha

end CertAuthority
