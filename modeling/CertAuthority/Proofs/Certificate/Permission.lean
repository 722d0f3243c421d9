import CertAuthority.Proofs.Certificate.Run
import CertAuthority.Proofs.Extension.Resolve

/-!
# Wishes that a profile does not grant

A profile says whether a request may choose the dates and the key usage of its certificate. A wish that is
not granted is as good as none: what is issued, and what is reported if nothing is, is the same as for the
request without it (`issue_permitted`). Two requests that differ in such wishes only are treated alike
(`issue_eq_of_agreeUnder`).
-/

namespace CertAuthority

namespace Request

/-- A request with those of its wishes that a profile grants. -/
def permitted (r : Request) (profile : Profile) : Request :=
  { r with
    keyUsage := if profile.allowKeyUsageOverride then r.keyUsage else none
    notBefore := Validity.permitted profile r.notBefore
    notAfter := Validity.permitted profile r.notAfter }

/-- Two requests that differ at most in wishes that a profile does not grant. -/
structure AgreeUnder (profile : Profile) (r s : Request) : Prop where
  subjectDn : r.subjectDn = s.subjectDn
  subjectAltName : r.subjectAltName = s.subjectAltName
  publicKey : r.publicKey = s.publicKey
  directoryAttributes : r.directoryAttributes = s.directoryAttributes
  customData : r.customData = s.customData
  keyUsage : profile.allowKeyUsageOverride = true → r.keyUsage = s.keyUsage
  notBefore : profile.allowValidityOverride = true → r.notBefore = s.notBefore
  notAfter : profile.allowValidityOverride = true → r.notAfter = s.notAfter

/-- Requests that differ in wishes without permission only have the same permitted wishes. -/
lemma AgreeUnder.permitted_eq {profile : Profile} {r s : Request} (h : r.AgreeUnder profile s) :
    r.permitted profile = s.permitted profile := by
  have husage : (if profile.allowKeyUsageOverride then r.keyUsage else none) =
      if profile.allowKeyUsageOverride then s.keyUsage else none :=
    ite_congr rfl h.keyUsage fun _ => rfl
  have hstart : Validity.permitted profile r.notBefore = Validity.permitted profile s.notBefore :=
    ite_congr rfl h.notBefore fun _ => rfl
  have hend : Validity.permitted profile r.notAfter = Validity.permitted profile s.notAfter :=
    ite_congr rfl h.notAfter fun _ => rfl
  unfold permitted
  rw [husage, hstart, hend, h.subjectDn, h.subjectAltName, h.publicKey, h.directoryAttributes,
    h.customData]

end Request

namespace Validity

variable {profile : Profile}

/-- A permitted wish stays permitted. -/
lemma permitted_permitted (wish : Option Nat) :
    permitted profile (permitted profile wish) = permitted profile wish := by
  unfold permitted
  split <;> rfl

/-- Wishes without permission do not matter for the window. -/
lemma resolve_permitted (now : Nat) (r : Request) (caNotAfter : Option Nat) :
    resolve now (r.permitted profile) profile caNotAfter = resolve now r profile caNotAfter := by
  have hstart : start now (r.permitted profile) profile = start now r profile := by
    simp only [start, Request.permitted, permitted_permitted]
  have hend : wantedEnd now (r.permitted profile) profile = wantedEnd now r profile := by
    simp only [wantedEnd, Request.permitted, permitted_permitted]
  have hlate (first last : Nat) :
      tooLate (r.permitted profile) profile first last = tooLate r profile first last := by
    simp only [tooLate, Request.permitted, permitted_permitted]
  simp only [resolve, hstart, hend, hlate]

end Validity

namespace ExtensionContext

/-- Wishes without permission do not matter for the uses of the key. -/
lemma effectiveKeyUsage_permitted (c : ExtensionContext) :
    effectiveKeyUsage { c with request := c.request.permitted c.profile } = c.effectiveKeyUsage := by
  have hwish : (c.request.permitted c.profile).keyUsage =
      if c.profile.allowKeyUsageOverride then c.request.keyUsage else none := rfl
  simp only [effectiveKeyUsage, hwish]
  cases c.profile.allowKeyUsageOverride with
  | true => simp
  | false => cases c.request.keyUsage <;> simp

/-- The extensions do not depend on wishes that are not granted, unless a plugin does. -/
lemma resolve_permitted {c : ExtensionContext} (hp : ∀ plugin ∈ c.resolved.plugins, plugin.IsFixed) :
    resolve { c with request := c.request.permitted c.profile } = c.resolve := by
  have husage : keyUsage { c with request := c.request.permitted c.profile } = c.keyUsage := by
    rw [keyUsage, effectiveKeyUsage_permitted]
    rfl
  have hplugins : c.resolved.plugins.map
      (pluginExtension { c with request := c.request.permitted c.profile }) =
        c.resolved.plugins.map c.pluginExtension := by
    apply List.map_congr_left
    intro plugin hplugin
    obtain ⟨octets, hvalue⟩ := (hp plugin hplugin).exists_value
    simp only [pluginExtension, hvalue]
  -- the other sources look at parts of the request that stay as they are
  have hsources : sources { c with request := c.request.permitted c.profile } = c.sources := by
    unfold sources
    rw [husage, hplugins]
    rfl
  rw [resolve, hsources]
  rfl

end ExtensionContext

namespace Authority

variable {ca : Authority} {p : ResolvedProfile} {key : SigningKey} {now : Nat} {drawn : Octets}

/-- Issuing goes as if the wishes that are not granted had not been made. -/
lemma issue_permitted (r : Request) (hp : ∀ plugin ∈ p.plugins, plugin.IsFixed) :
    ca.issue (r.permitted p.profile) p key now drawn = ca.issue r p key now drawn := by
  have hprepare (signerKey : PublicKeyInfo) (algorithm : SignatureAlgorithm) (window : Validity) :
      ca.prepareCertificate (r.permitted p.profile) p signerKey algorithm window drawn =
        ca.prepareCertificate r p signerKey algorithm window drawn := by
    have hresolve (altNames : List AltName) :
        ExtensionContext.resolve ⟨r.permitted p.profile, altNames, p, ca, signerKey⟩ =
          ExtensionContext.resolve ⟨r, altNames, p, ca, signerKey⟩ :=
      @ExtensionContext.resolve_permitted ⟨r, altNames, p, ca, signerKey⟩ hp
    unfold prepareCertificate
    simp only [hresolve]
    rfl
  unfold issue
  simp only [Validity.resolve_permitted, hprepare]

/-- Requests that differ only in wishes that the profile does not grant have the same result, be it a
certificate or an error: in the key usage where the profile does not let a request choose that, in the
dates where it does not let a request choose those. -/
theorem issue_eq_of_agreeUnder {r s : Request} (hp : ∀ plugin ∈ p.plugins, plugin.IsFixed)
    (h : r.AgreeUnder p.profile s) :
    ca.issue r p key now drawn = ca.issue s p key now drawn := by
  calc ca.issue r p key now drawn
      = ca.issue (r.permitted p.profile) p key now drawn := (issue_permitted r hp).symm
    _ = ca.issue (s.permitted p.profile) p key now drawn := by rw [h.permitted_eq]
    _ = ca.issue s p key now drawn := issue_permitted s hp

end Authority

namespace Sample

/-- A profile whose certificates have a key usage and a plugin with a fixed value. -/
def pluginProfile : ResolvedProfile where
  profile := { profile.profile with useKeyUsage := true }
  parsed := {}
  plugins := [⟨Oid.certificateTemplateName, false, fun _ _ _ => .ok Der.Tlv.null.encode⟩]

/-- The small request of somebody who would be an authority for longer than the profile says. -/
def greedyRequest : Request :=
  { request with
    keyUsage := some [.keyCertSign, .crlSign]
    notBefore := some 0
    notAfter := some lastSecond }

end Sample

/-- Whoever wishes to be an authority gets the same certificate as whoever does not. -/
theorem Authority.sample_agrees :
    (∀ plugin ∈ Sample.pluginProfile.plugins, plugin.IsFixed) ∧
    Sample.greedyRequest.AgreeUnder Sample.pluginProfile.profile Sample.request ∧
    Sample.greedyRequest ≠ Sample.request ∧ ∃ cert,
      Sample.authority.issue Sample.request Sample.pluginProfile Sample.token.signingKey Sample.now
        [1, 2, 3] = .ok cert ∧
      Sample.authority.issue Sample.greedyRequest Sample.pluginProfile Sample.token.signingKey Sample.now
        [1, 2, 3] = .ok cert := by
  have hok : (Sample.authority.issue Sample.request Sample.pluginProfile Sample.token.signingKey
      Sample.now [1, 2, 3]).isOk = true := by
    decide +kernel
  obtain ⟨cert, hcert⟩ := exists_of_isOk hok
  have hfixed : ∀ plugin ∈ Sample.pluginProfile.plugins, plugin.IsFixed := by
    intro plugin hplugin
    rw [List.mem_singleton.1 hplugin]
    exact ⟨_, _, .null, "", rfl⟩
  have hagree : Sample.greedyRequest.AgreeUnder Sample.pluginProfile.profile Sample.request :=
    ⟨rfl, rfl, rfl, rfl, rfl, nofun, nofun, nofun⟩
  refine ⟨hfixed, hagree, by decide, cert, hcert, ?_⟩
  rw [issue_eq_of_agreeUnder hfixed hagree, hcert]

end CertAuthority
