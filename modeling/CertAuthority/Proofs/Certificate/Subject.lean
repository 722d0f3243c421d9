import CertAuthority.Proofs.Certificate.Reattach
import CertAuthority.Proofs.Certificate.Root
import CertAuthority.Proofs.Config.Loaded

/-!
# The subject of a certificate

The subject of a certificate that was issued, read from its last relative name to its first, is the list of the
attributes of the requested name: those of the types that the profile keeps, in the order of the request, each
with its own value but for what the profile appends to common names (`Authority.subject_reads_as_requested`).
-/

namespace CertAuthority

open Der

/-! ### What a profile makes of a name -/

namespace Profile

variable {profile : Profile}

/-- A profile keeps all attributes, or those of the types in its subset, where a type stands with one of its names
or with its number. -/
def Keeps (profile : Profile) (a : TypedValue) : Prop :=
  profile.useSubjectDnSubset = true → ∃ label ∈ profile.subjectDnSubset, AttributeType.oid? label = .ok a.type

instance : DecidablePred profile.Keeps :=
  fun a => inferInstanceAs (Decidable (profile.useSubjectDnSubset = true →
    ∃ label ∈ profile.subjectDnSubset, AttributeType.oid? label = .ok a.type))

/-- An attribute with what the profile appends to common names. -/
def postfixed (profile : Profile) (a : TypedValue) : TypedValue :=
  if profile.useCnPostfix = true ∧ a.type = .commonName then { a with value := a.value ++ profile.cnPostfix }
  else a

/-- The attributes that certificates of the profile have of those that were requested. -/
def certified (profile : Profile) (requested : List TypedValue) : List TypedValue :=
  (requested.filter fun a => profile.Keeps a).map profile.postfixed

end Profile

namespace ResolvedProfile

variable {registry : Registry} {profile : Profile} {p : ResolvedProfile}

/-- The types in the subset of a profile are those that its texts name. -/
lemma mem_subjectDnSubset_iff (h : resolve registry profile = .ok p) {type : Oid} :
    type ∈ p.parsed.subjectDnSubset ↔ ∃ label ∈ profile.subjectDnSubset, AttributeType.oid? label = .ok type := by
  have hparsed := Profile.isParsed_of_parse (of_resolve h).2.1
  simp only [mem_iff_of_mapM hparsed.subjectDnSubset, ParsedProfile.underHeading, mapError_eq_ok_iff]

/-- The changes of a name are those that the profile asks for. -/
lemma attributes_changed (h : resolve registry profile = .ok p) (dn : DistinguishedName) :
    (p.changed dn).attributes = profile.certified dn.attributes := by
  have hprofile := (of_resolve h).1
  have hkept : (if p.profile.useSubjectDnSubset then dn.retainTypes p.parsed.subjectDnSubset else dn).attributes =
      dn.attributes.filter fun a => profile.Keeps a := by
    rw [hprofile]
    split
    · rename_i hsubset
      refine List.filter_congr fun a _ => ?_
      simp only [Profile.Keeps, hsubset, true_imp_iff, List.contains_eq_mem, mem_subjectDnSubset_iff h]
    · rename_i hsubset
      refine (List.filter_eq_self.2 fun a _ => ?_).symm
      exact decide_eq_true fun hused => absurd hused hsubset
  rw [changed, Profile.certified, ← hkept, hprofile]
  split
  · rename_i hpostfix
    refine List.map_congr_left fun a _ => ?_
    simp only [Profile.postfixed, hpostfix, true_and]
  · rename_i hpostfix
    refine (List.map_id'' (fun a => ?_) _).symm
    rw [Profile.postfixed, if_neg fun h => hpostfix h.1]

end ResolvedProfile

namespace Authority

variable {ca : Authority} {request : Request} {registry : Registry} {profile : Profile} {p : ResolvedProfile}
  {key : SigningKey} {now : Nat} {drawn : Octets} {cert : IssuedCertificate}

/-- The subject of a certificate that was issued gives back, from its last relative name to its first, the
attributes of the requested name that the profile keeps, in their order and with their values, but for what it
appends to common names. Each of them stands alone in its relative name, in the string type of its value. -/
theorem subject_reads_as_requested (hp : ResolvedProfile.resolve registry profile = .ok p)
    (h : ca.issue request p key now drawn = .ok cert) :
    ∃ requested c, DistinguishedName.parse request.subjectDn = .ok requested ∧
      Certificate.decode? cert.der 0 = some c ∧ (∀ d, Certificate.decode? cert.der = some d → d = c) ∧
      Certificate.subjectOctets? cert.der = some c.tbs.subject.encode ∧
      c.tbs.subject.typed? = some (profile.certified requested.attributes) ∧
      Name.contents? c.tbs.subject.encode = some ((profile.certified requested.attributes).map fun a =>
        [(a.type, a.stringTag ca.dnEncoding, Octets.ofString a.value)]).reverse := by
  obtain ⟨run⟩ := exists_issueRun h
  obtain ⟨parts, hparts⟩ := exists_isPrepared run.tbs_eq
  obtain ⟨requested, hrequested, hname⟩ := subjectName_eq_ok_iff.1 parts.subject_eq
  rw [← hparts.subject] at hname
  have hcontents := DistinguishedName.contents?_of_toName hname run.fits_names.2 0
  rw [if_pos fun _ _ => Nat.zero_le _] at hcontents
  refine ⟨requested, run.certificate, hrequested, run.decode?_zero,
    fun d hd => (run.decode?_eq_some_iff.1 hd).1, run.subjectOctets?_eq, ?_, ?_⟩
  · rw [← ResolvedProfile.attributes_changed hp]
    exact DistinguishedName.typed?_of_toName hname
  · rw [← ResolvedProfile.attributes_changed hp]
    exact hcontents

end Authority

namespace Sample

/-- A profile that keeps common names and countries, the former by their number, and marks the former. -/
def markingProfile : Profile :=
  { profile.profile with
    useSubjectDnSubset := true, subjectDnSubset := ["2.5.4.3", "country"]
    useCnPostfix := true, cnPostfix := " (test)" }

def namedRequest : Request :=
  { request with subjectDn := "CN=a, O=b, CN=c, C=SE" }

end Sample

namespace Authority

/-- The organization is left out of the certificate and the two common names are marked. -/
theorem sample_subject : ∃ p cert c,
    ResolvedProfile.resolve {} Sample.markingProfile = .ok p ∧
      Sample.authority.issue Sample.namedRequest p Sample.token.signingKey Sample.now [1, 2, 3] = .ok cert ∧
      Certificate.decode? cert.der 0 = some c ∧
      c.tbs.subject.typed? = some [⟨.commonName, "a (test)"⟩, ⟨.commonName, "c (test)"⟩, ⟨.country, "SE"⟩] := by
  have hissued : (ResolvedProfile.resolve {} Sample.markingProfile >>= fun p =>
      Sample.authority.issue Sample.namedRequest p Sample.token.signingKey Sample.now [1, 2, 3]).isOk = true := by
    decide +kernel
  obtain ⟨cert, h⟩ := exists_of_isOk hissued
  obtain ⟨p, hp, h⟩ := bind_eq_ok_iff.1 h
  obtain ⟨requested, c, hrequested, hdecode, -, -, hsubject, -⟩ := subject_reads_as_requested hp h
  have hparsed : DistinguishedName.parse Sample.namedRequest.subjectDn =
      .ok ⟨[⟨.commonName, "a"⟩, ⟨.organization, "b"⟩, ⟨.commonName, "c"⟩, ⟨.country, "SE"⟩]⟩ := by
    decide +kernel
  cases hrequested.symm.trans hparsed
  have hcertified : Sample.markingProfile.certified
      [⟨.commonName, "a"⟩, ⟨.organization, "b"⟩, ⟨.commonName, "c"⟩, ⟨.country, "SE"⟩] =
        [⟨.commonName, "a (test)"⟩, ⟨.commonName, "c (test)"⟩, ⟨.country, "SE"⟩] := by
    decide +kernel
  rw [hcertified] at hsubject
  exact ⟨p, cert, c, hp, h, hdecode, hsubject⟩

end Authority

end CertAuthority
