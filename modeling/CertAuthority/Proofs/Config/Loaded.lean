import CertAuthority.Extension.Registry
import CertAuthority.Proofs.Error

/-!
# What is known of a configuration that was loaded

Loading checks the texts of profiles and authorities and keeps only what the texts of a profile stand for.
The facts that the checks establish are collected here, so that nothing else has to look into them.
-/

namespace CertAuthority

/-- Trimming leaves an ASCII text ASCII. -/
lemma Text.isAscii_trimmed {s : String} (h : isAscii s = true) : isAscii (trimmed s) = true := by
  have mem_of_dropWhile {p : Char → Bool} {cs : List Char} {c : Char} (hc : c ∈ cs.dropWhile p) :
      c ∈ cs := (List.dropWhile_suffix p).subset hc
  simp only [isAscii, List.all_eq_true, trimmed, trim, String.toList_ofList] at h ⊢
  intro c hc
  apply h
  rw [List.mem_reverse] at hc
  have hc := mem_of_dropWhile hc
  rw [List.mem_reverse] at hc
  exact mem_of_dropWhile hc

/-- The issuer of a profile passes exactly if it can be read as a name. -/
lemma ParsedProfile.checkCrlIssuer_eq_ok_iff {text : String} :
    checkCrlIssuer text = .ok () ↔ ∃ dn, DistinguishedName.parse text = .ok dn := by
  simp only [checkCrlIssuer, underHeading, bind_eq_ok_iff, mapError_eq_ok_iff, pure_eq_ok_iff, and_true]

/-- An issuer of a profile that is no name is reported as such. -/
lemma ParsedProfile.checkCrlIssuer_of_error {text : String} {e : ParseError}
    (h : DistinguishedName.parse text = .error e) :
    checkCrlIssuer text = .error (.invalidProfile ("CRL issuer: " ++ e.message)) := by
  rw [checkCrlIssuer, h]
  rfl

/-- The issuer of an authority passes exactly if it can be read as a name that has a form. -/
lemma Authority.checkCrlIssuer_eq_ok_iff {ca : Authority} {text : String} :
    ca.checkCrlIssuer text = .ok () ↔
      ∃ dn name, DistinguishedName.parse text = .ok dn ∧ dn.toName ca.dnEncoding = .ok name := by
  simp only [checkCrlIssuer, ParsedProfile.underHeading, bind_eq_ok_iff, mapError_eq_ok_iff, pure_eq_ok_iff, and_true]
  constructor
  · rintro ⟨name, dn, hdn, hname⟩
    exact ⟨dn, name, hdn, hname⟩
  · rintro ⟨dn, name, hdn, hname⟩
    exact ⟨name, dn, hdn, hname⟩

/-- An issuer of an authority that is no name is reported as such. -/
lemma Authority.checkCrlIssuer_of_error {ca : Authority} {text : String} {e : ParseError}
    (h : DistinguishedName.parse text = .error e) :
    ca.checkCrlIssuer text = .error (.invalidProfile ("default CRL issuer: " ++ e.message)) := by
  rw [checkCrlIssuer, h]
  rfl

/-- What the parsed texts of a profile stand for, and what its other texts satisfy. -/
structure Profile.IsParsed (p : Profile) (parsed : ParsedProfile) : Prop where
  extendedKeyUsage : p.extendedKeyUsage.mapM ParsedProfile.keyPurpose = .ok parsed.extendedKeyUsage
  policyIds : (Text.entries p.certificatePolicyId).mapM (ParsedProfile.oid "certificate policy") =
    .ok parsed.policyIds
  subjectDnSubset : (p.subjectDnSubset.mapM fun name =>
    ParsedProfile.underHeading "subject DN subset" (AttributeType.oid? name)) =
      .ok parsed.subjectDnSubset
  crlIssuers : ∀ text ∈ Text.entries p.crlIssuer, ∃ dn, DistinguishedName.parse text = .ok dn
  crlPlaces : ∀ uri ∈ Text.entries p.crlDistributionPointUri, Text.isAscii uri = true
  statusPlaces : ∀ uri ∈ Text.entries p.ocspServiceLocatorUri, Text.isAscii uri = true
  cpsUrl : Text.isAscii p.policyCpsUrl = true
  template : Text.isAscii p.microsoftTemplate = true
  notice : p.policyUserNoticeText.length ≤ ParsedProfile.maxNoticeLength
  semanticsId : ParsedProfile.optionalOid "QC semantics identifier" p.qcStatements.semanticsId =
    .ok parsed.qcSemanticsId
  raNames : AltName.parse p.qcStatements.raName = .ok parsed.qcRaNames
  customOid : (if p.qcStatements.useCustomString then
    ParsedProfile.optionalOid "QC custom statement" p.qcStatements.customStringOid else .ok none) =
      .ok parsed.qcCustomOid
  currency : ParsedProfile.checkCurrency p.qcStatements = .ok ()

/-- A profile whose texts parse satisfies everything that parsing checks. -/
lemma Profile.isParsed_of_parse {p : Profile} {parsed : ParsedProfile} (h : p.parse = .ok parsed) :
    p.IsParsed parsed := by
  have ascii {text : String} (hc : ParsedProfile.checkAscii text = .ok ()) :
      Text.isAscii text = true := by
    unfold ParsedProfile.checkAscii at hc
    split at hc
    · assumption
    · cases hc
  simp only [parse, bind_eq_ok_iff] at h
  obtain ⟨purposes, hpurposes, ids, hids, subset, hsubset, ⟨⟩, hissuers, ⟨⟩, hascii, h⟩ := h
  have hascii := forM_eq_ok_iff.1 hascii
  simp only [List.mem_append, List.mem_cons, List.not_mem_nil, or_false] at hascii
  have hissuers : ∀ text ∈ Text.entries p.crlIssuer, ∃ dn, DistinguishedName.parse text = .ok dn :=
    fun text ht => ParsedProfile.checkCrlIssuer_eq_ok_iff.1 (forM_eq_ok_iff.1 hissuers text ht)
  split at h
  · cases h
  · rename_i hnotice
    simp only [bind_eq_ok_iff] at h
    obtain ⟨semantics, hsemantics, names, hnames, h⟩ := h
    have hnames := mapError_eq_ok_iff.1 hnames
    -- the identifier of the statement with a text is read only where there is such a statement
    have hrest : ∃ custom, (if p.qcStatements.useCustomString then
          ParsedProfile.optionalOid "QC custom statement" p.qcStatements.customStringOid else .ok none) =
            .ok custom ∧ ParsedProfile.checkCurrency p.qcStatements = .ok () ∧
        parsed = ⟨purposes, ids, subset, semantics, names, custom⟩ := by
      split at h
      · rename_i huse
        obtain ⟨custom, hcustom, ⟨⟩, hcurrency, hp⟩ := by simpa only [bind_eq_ok_iff] using h
        exact ⟨custom, (if_pos huse).trans hcustom, hcurrency, (pure_eq_ok_iff.1 hp).symm⟩
      · rename_i huse
        obtain ⟨custom, hcustom, ⟨⟩, hcurrency, hp⟩ := by simpa only [bind_eq_ok_iff] using h
        exact ⟨custom, (if_neg huse).trans hcustom, hcurrency, (pure_eq_ok_iff.1 hp).symm⟩
    obtain ⟨custom, hcustom, hcurrency, rfl⟩ := hrest
    exact {
      extendedKeyUsage := hpurposes
      policyIds := hids
      subjectDnSubset := hsubset
      crlIssuers := hissuers
      crlPlaces := fun uri hu => ascii (hascii uri (.inl (.inl hu)))
      statusPlaces := fun uri hu => ascii (hascii uri (.inl (.inr hu)))
      cpsUrl := ascii (hascii _ (.inr (.inl rfl)))
      template := ascii (hascii _ (.inr (.inr rfl)))
      notice := Nat.not_lt.1 hnotice
      semanticsId := hsemantics
      raNames := hnames
      customOid := hcustom
      currency := hcurrency }

/-- In an accepted profile other issuers can be set if each of them is a name. -/
lemma Profile.parse_with_crlIssuer {p : Profile} {parsed : ParsedProfile} (h : p.parse = .ok parsed)
    (text : String) : { p with crlIssuer := text }.parse =
      (Text.entries text).forM ParsedProfile.checkCrlIssuer >>= fun _ => .ok parsed := by
  simp only [parse, bind_eq_ok_iff] at h
  obtain ⟨purposes, hpurposes, ids, hids, subset, hsubset, ⟨⟩, -, ⟨⟩, hascii, h⟩ := h
  simp only [parse, hpurposes, hids, hsubset, hascii, ok_bind]
  congr 1
  funext _
  exact h

/-- What the texts of an authority that was checked satisfy. -/
structure Authority.IsChecked (ca : Authority) : Prop where
  subject : ∃ name, ca.encodedSubject = .ok name
  crlIssuers : ∀ text ∈ Text.entries ca.defaultCrlIssuer,
    ∃ dn name, DistinguishedName.parse text = .ok dn ∧ dn.toName ca.dnEncoding = .ok name
  crlPlaces : ∀ uri ∈ Text.entries ca.defaultCrlDistributionPoint, Text.isAscii uri = true
  statusPlaces : ∀ uri ∈ Text.entries ca.defaultOcspLocator, Text.isAscii uri = true
  period : 0 < ca.crlPeriodHours
  width : SerialNumber.checkWidth ca.serialNumberWidth = .ok ()

/-- An authority that passes the check satisfies everything that it checks. -/
lemma Authority.isChecked_of_validate {ca : Authority} (h : ca.validate = .ok ()) : ca.IsChecked := by
  have ascii {text : String} (hc : checkPlace text = .ok ()) : Text.isAscii text = true := by
    unfold checkPlace at hc
    split at hc
    · assumption
    · cases hc
  simp only [validate, bind_eq_ok_iff] at h
  obtain ⟨dn, hdn, h⟩ := h
  split at h
  · cases h
  · simp only [bind_eq_ok_iff] at h
    obtain ⟨name, hname, ⟨⟩, hissuers, ⟨⟩, hplaces, h⟩ := h
    have hplaces := forM_eq_ok_iff.1 hplaces
    simp only [List.mem_append] at hplaces
    split at h
    · cases h
    · rename_i hperiod
      have hname := mapError_eq_ok_iff.1 hname
      have hdn := mapError_eq_ok_iff.1 hdn
      refine ⟨⟨name, ?_⟩, ?_, fun uri hu => ascii (hplaces uri (.inl hu)),
        fun uri hu => ascii (hplaces uri (.inr hu)), Nat.pos_of_ne_zero hperiod, h⟩
      · exact mapError_eq_ok_iff.2 (bind_eq_ok_iff.2 ⟨dn, hdn, hname⟩)
      · exact fun text ht => checkCrlIssuer_eq_ok_iff.1 (forM_eq_ok_iff.1 hissuers text ht)

/-- In an accepted authority other issuers can be set if each of them is a name that can be encoded. -/
lemma Authority.validate_with_defaultCrlIssuer {ca : Authority} (h : ca.validate = .ok ()) (text : String) :
    { ca with defaultCrlIssuer := text }.validate =
      (Text.entries text).forM ca.checkCrlIssuer >>= fun _ => .ok () := by
  simp only [validate, bind_eq_ok_iff] at h
  obtain ⟨dn, hdn, h⟩ := h
  split at h
  · cases h
  · rename_i hempty
    simp only [bind_eq_ok_iff] at h
    obtain ⟨name, hname, ⟨⟩, -, ⟨⟩, hplaces, h⟩ := h
    simp only [validate, hdn, hname, hplaces, ok_bind, if_neg hempty]
    congr 1
    funext _
    exact h

/-- An authority that was read from a text has been checked. -/
lemma Authority.validate_of_ofToml {text : String} {ca : Authority} (h : ofToml text = .ok ca) :
    ca.validate = .ok () := by
  unfold ofToml at h
  split at h
  · split at h
    · obtain ⟨⟨⟩, hv, hca⟩ := bind_eq_ok_iff.1 h
      cases hca
      exact hv
    · cases h
  · cases h

/-- A resolved profile is the given one with its texts parsed and its plugins looked up. -/
lemma ResolvedProfile.of_resolve {registry : Registry} {profile : Profile} {p : ResolvedProfile}
    (h : resolve registry profile = .ok p) :
    p.profile = profile ∧ profile.parse = .ok p.parsed ∧ pluginsOf registry profile = .ok p.plugins := by
  simp only [resolve, bind_eq_ok_iff, pure_eq_ok_iff] at h
  obtain ⟨parsed, hparsed, plugins, hplugins, rfl⟩ := h
  exact ⟨rfl, hparsed, hplugins⟩

end CertAuthority
