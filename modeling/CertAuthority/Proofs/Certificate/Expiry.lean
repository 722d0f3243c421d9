import CertAuthority.Proofs.Certificate.Attach
import CertAuthority.Proofs.Certificate.Validity

/-!
# Issuing when the certificate of the authority ends

A certificate starts a little before it is issued, and it is this start that has to come before the end of the
authority's certificate. So an authority goes on issuing for that margin after its own certificate has ended, and
what it issues then has ended as well; from then on it refuses (`Authority.issued_within_margin`).
-/

namespace CertAuthority

namespace Validity

variable {now l : Nat} {request : Request} {profile : Profile}

/-- Without wishes a certificate is refused from the margin after the limit on, and the limit is to blame. -/
lemma resolve_of_no_override (hkind : profile.kind ≠ .rootCa) (hoverride : profile.allowValidityOverride = false) :
    resolve now request profile (some l) =
      if l ≤ now - 600 then
        .error (.invalidCaCertificate ("notBefore " ++ toString (now - 600) ++
          " is not before the CA certificate expiry " ++ toString l))
      else .ok ⟨now - 600, max (min (wantedEnd now request profile) l) (now - 600)⟩ := by
  have hwish (wish : Option Nat) : permitted profile wish = none := by
    rw [permitted, if_neg (by simp [hoverride])]
  have hstart : start now request profile = now - 600 := by
    rw [start, hwish]
    rfl
  rw [resolve_of_limit hkind, hstart, tooLate, hwish]

/-- Without wishes a certificate would not end before it is issued. -/
lemma le_wantedEnd (hoverride : profile.allowValidityOverride = false) (hnow : now < 2 ^ 64) :
    now ≤ wantedEnd now request profile := by
  have hwish : permitted profile request.notAfter = none := by
    rw [permitted, if_neg (by simp [hoverride])]
  rw [wantedEnd_eq, hwish, Option.getD_none]
  omega

end Validity

namespace Authority

variable {ca : Authority} {request : Request} {p : ResolvedProfile} {key : SigningKey} {now : Nat}
  {drawn : Octets}

/-- Under a profile that is no root's and grants no wishes, an authority issues until the clock skew margin after
its own certificate has ended. Until its own ends, the certificates end no sooner than they are issued; within the
margin they end with its own, so before they are issued. From the margin on it refuses, and blames its own
certificate unless the token fails first. -/
theorem issued_within_margin {ic : IssuerCertificate} (hc : ca.certificate = some ic)
    (hkind : p.profile.kind ≠ .rootCa) (hoverride : p.profile.allowValidityOverride = false)
    (hnow : now < 2 ^ 64) :
    (∀ cert, ca.issue request p key now drawn = .ok cert →
      now - 600 < ic.notAfter ∧
      (now ≤ ic.notAfter → now ≤ cert.notAfter) ∧
      (ic.notAfter < now → cert.notAfter = ic.notAfter)) ∧
    (ic.notAfter ≤ now - 600 → ∃ e, ca.issue request p key now drawn = .error e ∧
      ∀ signerKey algorithm, key.publicKey .certSign = .ok signerKey → key.algorithm .certSign = .ok algorithm →
        e = .invalidCaCertificate ("notBefore " ++ toString (now - 600) ++
          " is not before the CA certificate expiry " ++ toString ic.notAfter)) := by
  have hwindow := @Validity.resolve_of_no_override now ic.notAfter request p.profile hkind hoverride
  have hlimit : ca.certificate.map (·.notAfter) = some ic.notAfter := by
    rw [hc, Option.map_some]
  rw [← hlimit] at hwindow
  -- What a run has for its end is the wanted one, cut to that of the authority and never before the start.
  have hissued (cert : IssuedCertificate) (h : ca.issue request p key now drawn = .ok cert) :
      now - 600 < ic.notAfter ∧
        cert.notAfter = max (min (Validity.wantedEnd now request p.profile) ic.notAfter) (now - 600) := by
    obtain ⟨run⟩ := exists_issueRun h
    have hrun := hwindow.symm.trans run.window_eq
    split at hrun
    · cases hrun
    · rename_i hstart
      exact ⟨Nat.lt_of_not_le hstart, (congrArg Validity.notAfter (Except.ok.inj hrun)).symm⟩
  refine ⟨fun cert h => ?_, fun hlate => ?_⟩
  · obtain ⟨hstart, hend⟩ := hissued cert h
    have hwanted : now ≤ Validity.wantedEnd now request p.profile := Validity.le_wantedEnd hoverride hnow
    omega
  · rw [if_pos hlate] at hwindow
    cases h : ca.issue request p key now drawn with
    | ok cert => exact absurd (hissued cert h).1 (Nat.not_lt.2 hlate)
    | error e =>
      refine ⟨e, rfl, fun signerKey algorithm hsigner halgorithm => ?_⟩
      rw [issue, hsigner, halgorithm, hwindow] at h
      exact (Except.error.inj h).symm

end Authority

/-- The second after which the certificate of the small authority is not valid. -/
def Sample.expiry : Nat := 1813072000

/-- Some minutes after its certificate has ended, the small authority issues one that has ended with it. -/
lemma Sample.exists_issued_after_expiry : ∃ top attached ic cert,
    authority.issue request profile token.signingKey now [1] = .ok top ∧
      authority.attach top.der = .ok attached ∧ attached.certificate = some ic ∧ ic.notAfter = expiry ∧
      attached.issue request profile token.signingKey (expiry + 300) [2] = .ok cert ∧ cert.notAfter = expiry := by
  have hrun : (do
      let top ← authority.issue request profile token.signingKey now [1]
      let attached ← authority.attach top.der
      let cert ← attached.issue request profile token.signingKey (expiry + 300) [2]
      return (attached.certificate.map IssuerCertificate.notAfter, cert.notAfter)) =
      .ok (some expiry, expiry) := by
    decide +kernel
  simp only [bind_eq_ok_iff, pure_eq_ok_iff, Prod.mk.injEq] at hrun
  obtain ⟨top, htop, attached, hattached, cert, hcert, hfound, hend⟩ := hrun
  obtain ⟨ic, hc, hexpiry⟩ := Option.map_eq_some_iff.1 hfound
  exact ⟨top, attached, ic, cert, htop, hattached, hc, hexpiry, hcert, hend⟩

namespace Authority

/-- The small authority issues until ten minutes after its certificate has ended, and not then. -/
theorem sample_within_margin : Sample.profile.profile.kind ≠ .rootCa ∧
    Sample.profile.profile.allowValidityOverride = false ∧
    ∃ (attached : Authority) (ic : IssuerCertificate) (cert : IssuedCertificate) (e : Error),
      attached.certificate = some ic ∧ ic.notAfter + 600 < 2 ^ 64 ∧
      attached.issue Sample.request Sample.profile Sample.token.signingKey (ic.notAfter + 300) [2] = .ok cert ∧
      cert.notAfter = ic.notAfter ∧
      attached.issue Sample.request Sample.profile Sample.token.signingKey (ic.notAfter + 600) [2] = .error e := by
  obtain ⟨-, attached, ic, cert, -, -, hc, hexpiry, hcert, -⟩ := Sample.exists_issued_after_expiry
  rw [← hexpiry] at hcert
  have hkind : Sample.profile.profile.kind ≠ .rootCa := nofun
  have htime : ic.notAfter + 600 < 2 ^ 64 := by
    rw [hexpiry]
    decide
  have hmargin := (issued_within_margin hc hkind rfl (by omega)).1 cert hcert
  obtain ⟨e, hrefused, -⟩ := (issued_within_margin hc hkind rfl htime).2 (by omega)
  exact ⟨hkind, rfl, attached, ic, cert, e, hc, htime, hcert, hmargin.2.2 (by omega), hrefused⟩

/-- A certificate is issued and has ended before it is issued, as has the certificate of its authority. The profile
is no root's, grants no wishes and lets certificates be valid for two years. -/
theorem exists_issued_after_end : Sample.profile.profile.kind ≠ .rootCa ∧
    Sample.profile.profile.allowValidityOverride = false ∧ 1 ≤ Sample.profile.profile.validityDays ∧
    ∃ der attached ic cert, Sample.authority.attach der = .ok attached ∧ attached.certificate = some ic ∧
      ic.notAfter < Sample.expiry + 300 ∧
      attached.issue Sample.request Sample.profile Sample.token.signingKey (Sample.expiry + 300) [2] = .ok cert ∧
      cert.notAfter < Sample.expiry + 300 := by
  obtain ⟨top, attached, ic, cert, -, hattached, hc, hexpiry, hcert, hend⟩ := Sample.exists_issued_after_expiry
  refine ⟨nofun, rfl, by decide, top.der, attached, ic, cert, hattached, hc, ?_, hcert, ?_⟩
  · omega
  · omega

end Authority

end CertAuthority
