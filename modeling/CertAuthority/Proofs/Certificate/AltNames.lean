import CertAuthority.Proofs.AltName.Encoded
import CertAuthority.Proofs.Certificate.Chain
import CertAuthority.Proofs.Extension.Resolve

/-!
# The alternative names of a subject

A certificate whose profile asks for alternative names has those that were requested, of the kinds that the profile
keeps: one general name for each, of its kind and with its content, in the order of the request, and no such
extension if none is left. If nothing else fails, the request is refused exactly if its text does not parse or a
name that is kept cannot be encoded. Names that are dropped are never encoded (`Authority.alt_names_as_requested`).
-/

namespace CertAuthority

open Der

/-- The error blames the request. -/
def Error.IsInvalidSubject : Error → Prop
  | invalidSubject _ => True
  | _ => False

/-- An error of a subject has its details. -/
lemma Error.IsInvalidSubject.exists_eq {e : Error} (h : e.IsInvalidSubject) :
    ∃ details, e = .invalidSubject details := by
  cases e with
  | invalidSubject details => exact ⟨details, rfl⟩
  | _ => exact h.elim

/-- The requested names that the profile keeps: all of them, or those of the kinds in its subset. -/
def Profile.keptNames (profile : Profile) (requested : List AltName) : List AltName :=
  requested.filter fun name => profile.useSubjectAltNameSubset = true → name.kind ∈ profile.subjectAltNameSubset

/-- The extensions of a certificate that hold alternative names. -/
def Certificate.altNameExtensions (c : Certificate) : List Extension :=
  (c.tbs.extensions.getD []).filter fun e => e.oid = Oid.subjectAltName

/-- The names in an extension that holds alternative names. -/
def Extension.altNames? (e : Extension) : Option (List GeneralName) := do
  GeneralName.listOfTlv? (← Tlv.decode? e.value) 0

/-! ### The extension of the alternative names -/

namespace ExtensionContext

variable {c : ExtensionContext} {es : List Extension}

/-- The extension has what the kept names stand for, and there is none where no name is kept. -/
lemma subjectAltName_eq_ok_iff (huse : c.profile.useSubjectAltName = true) {g : Option Extension} :
    c.subjectAltName = .ok g ↔ c.altNames = [] ∧ g = none ∨ c.altNames ≠ [] ∧ ∃ names,
      List.Forall₂ (AltName.StandsFor c.ca.dnEncoding) c.altNames names ∧
        g = some (.ofElement Oid.subjectAltName c.profile.subjectAltNameCritical (GeneralName.listTlv names)) := by
  have hon : (c.profile.useSubjectAltName && !c.altNames.isEmpty) = true ↔ c.altNames ≠ [] := by
    simp [huse]
  have hoff : (c.profile.useSubjectAltName && !c.altNames.isEmpty) = false ↔ c.altNames = [] := by
    simp [huse]
  simp only [subjectAltName, whenever_eq_ok_iff, hon, hoff, underHeading, bind_eq_ok_iff, mapError_eq_ok_iff,
    AltName.toGeneralNames_eq_ok_iff, pure_eq_ok_iff]
  constructor
  · rintro (⟨hne, _, ⟨names, hnames, rfl⟩, rfl⟩ | ⟨hnil, rfl⟩)
    · exact .inr ⟨hne, names, hnames, rfl⟩
    · exact .inl ⟨hnil, rfl⟩
  · rintro (⟨hnil, rfl⟩ | ⟨hne, names, hnames, rfl⟩)
    · exact .inr ⟨hnil, rfl⟩
    · exact .inl ⟨hne, _, ⟨names, hnames, rfl⟩, rfl⟩

/-- The extension can be computed exactly if every kept name can be encoded. -/
lemma exists_subjectAltName_iff (huse : c.profile.useSubjectAltName = true) :
    (∃ g, c.subjectAltName = .ok g) ↔ ∀ name ∈ c.altNames, name.IsEncodable := by
  rw [← @AltName.exists_toGeneralNames_iff c.ca.dnEncoding]
  simp only [subjectAltName_eq_ok_iff huse, AltName.toGeneralNames_eq_ok_iff]
  constructor
  · rintro ⟨g, ⟨hnil, -⟩ | ⟨-, names, hnames, -⟩⟩
    · rw [hnil]
      exact ⟨[], .nil⟩
    · exact ⟨names, hnames⟩
  · rintro ⟨names, hnames⟩
    by_cases hnil : c.altNames = []
    · exact ⟨none, .inl ⟨hnil, rfl⟩⟩
    · exact ⟨_, .inr ⟨hnil, names, hnames, rfl⟩⟩

/-- Names that cannot be encoded are the fault of the request. -/
lemma subjectAltName_failsOnly : FailsOnly Error.IsInvalidSubject c.subjectAltName := by
  have hnames : FailsOnly Error.IsInvalidSubject (underHeading "subject alternative name"
      (AltName.toGeneralNames c.ca.dnEncoding c.altNames)) := .mapError _ fun _ => trivial
  exact .ite (.map (.bind hnames fun _ _ => .ok _)) (.ok none)

/-- The alternative names have their identifier among the extensions that are built in. -/
lemma mem_zip_subjectAltName (c : ExtensionContext) :
    (Oid.subjectAltName, c.subjectAltName) ∈ builtInIdentifiers.zip c.builtInSources := by
  simp [builtInIdentifiers, builtInSources]

/-- Only one source looks at the alternative names. -/
lemma exists_sources_eq (c : ExtensionContext) : ∃ before after, ∀ names,
    sources { c with altNames := names } = before ++ subjectAltName { c with altNames := names } :: after :=
  ⟨[c.basicConstraints, c.keyUsage, c.extendedKeyUsage, c.subjectKeyIdentifier, c.authorityKeyIdentifier],
    [c.certificatePolicies, c.crlDistributionPoints, c.authorityInfoAccess, c.templateName, c.qcStatements,
      c.subjectDirectoryAttributes] ++ c.resolved.plugins.map c.pluginExtension, fun _ => rfl⟩

/-- If the other extensions can be had, it is left to the alternative names whether all can be. -/
lemma resolve_with_altNames (h : resolve { c with altNames := [] } = .ok es)
    (hp : ∀ plugin ∈ c.resolved.plugins, plugin.oid ≠ Oid.subjectAltName) (names : List AltName) :
    (∀ e, subjectAltName { c with altNames := names } = .error e → resolve { c with altNames := names } = .error e) ∧
      ∀ g, subjectAltName { c with altNames := names } = .ok g →
        ∃ out, resolve { c with altNames := names } = .ok out := by
  have hnone : subjectAltName { c with altNames := [] } = .ok none := by
    simp [subjectAltName, whenever]
  have hnew : ∀ e ∈ es, e.oid ≠ Oid.subjectAltName := by
    obtain ⟨g, hg, hfilter⟩ := filter_of_resolve h (mem_zip_subjectAltName _) hp
    cases hnone.symm.trans hg
    simpa using List.filter_eq_nil_iff.1 hfilter
  obtain ⟨before, after, hsources⟩ := exists_sources_eq c
  rw [resolve, hsources, hnone] at h
  obtain ⟨hfails, hgives⟩ := collect_replaced h
  constructor
  · intro e he
    rw [resolve, hsources, he]
    exact hfails e
  · intro g hg
    rw [resolve, hsources, hg]
    refine hgives g fun e he hmem => ?_
    have hid : Gives Oid.subjectAltName (subjectAltName { c with altNames := names }) := gives_computed
    obtain ⟨other, hother, hsame⟩ := List.mem_map.1 hmem
    exact hnew other hother (hsame.trans (hid e (hg.trans (congrArg Except.ok he))))

end ExtensionContext

namespace Authority

variable {ca : Authority} {request : Request} {p : ResolvedProfile} {key : SigningKey} {now : Nat} {drawn : Octets}

/-! ### What was issued -/

/-- The names are those of the requested text that the profile keeps. -/
lemma subjectAltNames_eq_ok_iff {names : List AltName} : subjectAltNames request p = .ok names ↔
    ∃ requested, AltName.parse (request.subjectAltName.getD "") = .ok requested ∧
      p.profile.keptNames requested = names := by
  have hkept (requested : List AltName) : (if p.profile.useSubjectAltNameSubset then
      AltName.retainKinds requested p.profile.subjectAltNameSubset else requested) = p.profile.keptNames requested := by
    unfold Profile.keptNames
    split
    · rename_i hsubset
      simp [AltName.retainKinds, hsubset]
    · rename_i hsubset
      simp [hsubset]
  simp only [subjectAltNames, ExtensionContext.underHeading, bind_eq_ok_iff, mapError_eq_ok_iff, pure_eq_ok_iff, hkept]

/-- A text of names that cannot be read is the fault of the request. -/
lemma subjectAltNames_failsOnly : FailsOnly Error.IsInvalidSubject (subjectAltNames request p) :=
  .bind (.mapError _ fun _ => trivial) fun _ _ => .ok _

/-- The alternative names of a certificate that was issued are those that its profile keeps. -/
lemma IssueRun.altNameExtensions_eq {cert : IssuedCertificate} (run : IssueRun ca request p key now drawn cert)
    (huse : p.profile.useSubjectAltName = true) (hp : ∀ plugin ∈ p.plugins, plugin.oid ≠ Oid.subjectAltName) :
    ∃ requested, AltName.parse (request.subjectAltName.getD "") = .ok requested ∧
      (p.profile.keptNames requested = [] ∧ run.certificate.altNameExtensions = [] ∨
        p.profile.keptNames requested ≠ [] ∧ ∃ names,
          List.Forall₂ (AltName.StandsFor ca.dnEncoding) (p.profile.keptNames requested) names ∧
            run.certificate.altNameExtensions = [.ofElement Oid.subjectAltName p.profile.subjectAltNameCritical
              (GeneralName.listTlv names)]) := by
  obtain ⟨parts, hparts⟩ := exists_isPrepared run.tbs_eq
  obtain ⟨requested, hrequested, hkept⟩ := subjectAltNames_eq_ok_iff.1 parts.altNames_eq
  refine ⟨requested, hrequested, ?_⟩
  obtain ⟨g, hg, hfilter⟩ :=
    ExtensionContext.filter_of_resolve parts.extensions_eq (ExtensionContext.mem_zip_subjectAltName _) hp
  rw [← hparts.getD_extensions] at hfilter
  rw [hkept]
  obtain ⟨hnil, rfl⟩ | ⟨hne, names, hnames, rfl⟩ := (@ExtensionContext.subjectAltName_eq_ok_iff
    ⟨request, parts.altNames, p, ca, run.signerKey⟩ huse g).1 hg
  · exact .inl ⟨hnil, hfilter⟩
  · exact .inr ⟨hne, names, hnames, hfilter⟩

/-- The alternative names of a certificate that was issued are read again. -/
lemma IssueRun.altNames?_ofElement {cert : IssuedCertificate} (run : IssueRun ca request p key now drawn cert)
    {names : List GeneralName} {critical : Bool} (hascii : ∀ g ∈ names, g.IsAscii)
    (hmem : .ofElement Oid.subjectAltName critical (GeneralName.listTlv names) ∈ run.certificate.altNameExtensions) :
    (Extension.ofElement Oid.subjectAltName critical (GeneralName.listTlv names)).altNames? = some names := by
  have hfits : (GeneralName.listTlv names).Fits :=
    TbsCertificate.fits_of_mem_extensions run.tbs_fits (List.mem_of_mem_filter hmem) rfl
  have hdecode : Tlv.decode? (GeneralName.listTlv names).encode = some (GeneralName.listTlv names) :=
    Tlv.decode?_encode ⟨GeneralName.known_listTlv names, hfits⟩
  rw [Extension.altNames?, Extension.ofElement, hdecode, Option.bind_eq_bind, Option.bind_some]
  exact (GeneralName.listOfTlv?_listTlv_iff hascii hfits).2 ⟨rfl, fun _ _ _ _ => Nat.zero_le _⟩

/-! ### What is left to the alternative names -/

/-- The steps of issuing a certificate without those that deal with alternative names, all of which succeed: what
comes before the signed part is there, so are the extensions without one for alternative names, and whatever
signed part is put together can be signed and passes verification. -/
structure OtherSteps (ca : Authority) (request : Request) (p : ResolvedProfile) (key : SigningKey) (now : Nat)
    (drawn : Octets) where
  signerKey : PublicKeyInfo
  algorithm : SignatureAlgorithm
  window : Validity
  subject : Name
  issuer : Name
  extensions : List Extension
  /-- The start of the validity has a form. -/
  notBefore : Timestamp
  /-- The end of the validity has a form. -/
  notAfter : Timestamp
  signerKey_eq : key.publicKey .certSign = .ok signerKey
  algorithm_eq : key.algorithm .certSign = .ok algorithm
  window_eq : Validity.resolve now request p.profile (ca.certificate.map (·.notAfter)) = .ok window
  subject_eq : ca.subjectName request p = .ok subject
  issuer_eq : ca.issuerName = .ok issuer
  width : SerialNumber.checkWidth ca.serialNumberWidth = .ok ()
  extensions_eq :
    ExtensionContext.resolve { request, altNames := [], resolved := p, ca, signerKey } = .ok extensions
  notBefore_eq : Timestamp.ofSeconds window.notBefore = .ok notBefore
  notAfter_eq : Timestamp.ofSeconds window.notAfter = .ok notAfter
  finish : ∀ tbs, ca.prepareCertificate request p signerKey algorithm window drawn = .ok tbs →
    tbs.tlv.Fits ∧ ∃ cert,
      (key.sign .certSign tbs.tlv.encode >>= finishCertificate tbs signerKey algorithm window) = .ok cert

/-- The requested alternative names can be had: their text parses, and those that the profile keeps can be
encoded. -/
def HasAltNames (request : Request) (profile : Profile) : Prop :=
  ∃ requested, AltName.parse (request.subjectAltName.getD "") = .ok requested ∧
    ∀ name ∈ profile.keptNames requested, name.IsEncodable

namespace OtherSteps

variable (steps : OtherSteps ca request p key now drawn)

/-- The steps that deal with alternative names. -/
def altNames : Except Error (Option Extension) := do
  let altNames ← subjectAltNames request p
  ExtensionContext.subjectAltName { request, altNames, resolved := p, ca, signerKey := steps.signerKey }

/-- Both steps go through exactly if the requested names can be had. -/
lemma exists_altNames_iff (huse : p.profile.useSubjectAltName = true) :
    (∃ g, steps.altNames = .ok g) ↔ HasAltNames request p.profile := by
  simp only [altNames, bind_eq_ok_iff, subjectAltNames_eq_ok_iff]
  constructor
  · rintro ⟨g, _, ⟨requested, hrequested, rfl⟩, hg⟩
    exact ⟨requested, hrequested, (ExtensionContext.exists_subjectAltName_iff huse).1 ⟨g, hg⟩⟩
  · rintro ⟨requested, hrequested, hkept⟩
    obtain ⟨g, hg⟩ := (@ExtensionContext.exists_subjectAltName_iff
      ⟨request, p.profile.keptNames requested, p, ca, steps.signerKey⟩ huse).2 hkept
    exact ⟨g, _, ⟨requested, hrequested, rfl⟩, hg⟩

/-- Both steps fail for the request only. -/
lemma altNames_failsOnly : FailsOnly Error.IsInvalidSubject steps.altNames :=
  .bind subjectAltNames_failsOnly fun _ _ => ExtensionContext.subjectAltName_failsOnly

/-- The signed part can be put together exactly if they succeed, and fails as they do. -/
lemma prepareCertificate_of_altNames (hp : ∀ plugin ∈ p.plugins, plugin.oid ≠ Oid.subjectAltName) :
    (∀ e, steps.altNames = .error e →
      ca.prepareCertificate request p steps.signerKey steps.algorithm steps.window drawn = .error e) ∧
    ∀ g, steps.altNames = .ok g → ∃ tbs,
      ca.prepareCertificate request p steps.signerKey steps.algorithm steps.window drawn = .ok tbs := by
  rw [altNames, prepareCertificate, steps.subject_eq, ok_bind]
  cases subjectAltNames request p with
  | error failure =>
    constructor
    · intro e he
      cases he
      rfl
    · intro g hg
      cases hg
  | ok names =>
    obtain ⟨hfails, hgives⟩ := @ExtensionContext.resolve_with_altNames
      ⟨request, [], p, ca, steps.signerKey⟩ _ steps.extensions_eq hp names
    simp only [ok_bind, steps.issuer_eq, steps.width, steps.notBefore_eq, steps.notAfter_eq]
    constructor
    · intro e he
      rw [hfails e he]
      rfl
    · intro g hg
      obtain ⟨es, hes⟩ := hgives g hg
      rw [hes]
      exact ⟨_, rfl⟩

/-- If they succeed, a certificate is issued; if not, the request is refused as they refuse it. -/
lemma issue_of_altNames (hp : ∀ plugin ∈ p.plugins, plugin.oid ≠ Oid.subjectAltName) :
    (∀ e, steps.altNames = .error e → ca.issue request p key now drawn = .error e) ∧
      ∀ g, steps.altNames = .ok g → ∃ cert, ca.issue request p key now drawn = .ok cert := by
  obtain ⟨hfails, hgives⟩ := steps.prepareCertificate_of_altNames hp
  constructor
  · intro e he
    rw [issue, steps.signerKey_eq, ok_bind, steps.algorithm_eq, ok_bind, steps.window_eq, ok_bind, hfails e he]
    rfl
  · intro g hg
    obtain ⟨tbs, htbs⟩ := hgives g hg
    obtain ⟨hfits, cert, hcert⟩ := steps.finish tbs htbs
    exact ⟨cert, (issue_eq steps.signerKey_eq steps.algorithm_eq steps.window_eq htbs hfits).trans hcert⟩

end OtherSteps

/-- The text of the alternative names is looked at for the names that are kept only, but for what plugins make of
it. -/
lemma issue_with_subjectAltName {text : Option String}
    (hvalues : ∀ plugin ∈ p.plugins,
      plugin.value { request with subjectAltName := text } ca p.profile = plugin.value request ca p.profile)
    (hsame : subjectAltNames { request with subjectAltName := text } p = subjectAltNames request p) :
    ca.issue { request with subjectAltName := text } p key now drawn = ca.issue request p key now drawn := by
  have hresolve (names : List AltName) (signerKey : PublicKeyInfo) :
      ExtensionContext.resolve ⟨{ request with subjectAltName := text }, names, p, ca, signerKey⟩ =
        ExtensionContext.resolve ⟨request, names, p, ca, signerKey⟩ := by
    have hplugins : p.plugins.map
        (ExtensionContext.pluginExtension ⟨{ request with subjectAltName := text }, names, p, ca, signerKey⟩) =
          p.plugins.map (ExtensionContext.pluginExtension ⟨request, names, p, ca, signerKey⟩) := by
      refine List.map_congr_left fun plugin hplugin => ?_
      simp only [ExtensionContext.pluginExtension, hvalues plugin hplugin]
    -- the other sources look at parts of the request that stay as they are
    unfold ExtensionContext.resolve ExtensionContext.sources
    rw [hplugins]
    rfl
  have hprepare (signerKey : PublicKeyInfo) (algorithm : SignatureAlgorithm) (window : Validity) :
      ca.prepareCertificate { request with subjectAltName := text } p signerKey algorithm window drawn =
        ca.prepareCertificate request p signerKey algorithm window drawn := by
    unfold prepareCertificate
    simp only [hresolve, hsame]
    rfl
  unfold issue
  simp only [hprepare]
  rfl

/-- A certificate whose profile asks for alternative names has those that were requested, of the kinds that the
profile keeps, in their order, each as a general name of its kind with its content, and no extension for them if
none is left. If all other steps succeed, the request is refused for them exactly if their text does not parse or
one that is kept cannot be encoded, and a certificate is issued otherwise. With a text that differs in names that
are dropped, the same comes of it. -/
theorem alt_names_as_requested (huse : p.profile.useSubjectAltName = true)
    (hp : ∀ plugin ∈ p.plugins, plugin.oid ≠ Oid.subjectAltName) :
    (∀ cert, ca.issue request p key now drawn = .ok cert → ∃ requested c,
      AltName.parse (request.subjectAltName.getD "") = .ok requested ∧
      Certificate.decode? cert.der 0 = some c ∧ (∀ d, Certificate.decode? cert.der = some d → d = c) ∧
      (p.profile.keptNames requested = [] ∧ c.altNameExtensions = [] ∨
        p.profile.keptNames requested ≠ [] ∧ ∃ e names, c.altNameExtensions = [e] ∧
          e = .ofElement Oid.subjectAltName p.profile.subjectAltNameCritical (GeneralName.listTlv names) ∧
          e.altNames? = some names ∧
          List.Forall₂ (AltName.StandsFor ca.dnEncoding) (p.profile.keptNames requested) names)) ∧
    (∀ _ : OtherSteps ca request p key now drawn,
      ((∃ details, ca.issue request p key now drawn = .error (.invalidSubject details)) ↔
        ¬ HasAltNames request p.profile) ∧
      ((∃ cert, ca.issue request p key now drawn = .ok cert) ↔ HasAltNames request p.profile)) ∧
    ∀ text requested requested',
      (∀ plugin ∈ p.plugins,
        plugin.value { request with subjectAltName := text } ca p.profile = plugin.value request ca p.profile) →
      AltName.parse (request.subjectAltName.getD "") = .ok requested → AltName.parse (text.getD "") = .ok requested' →
      p.profile.keptNames requested' = p.profile.keptNames requested →
      ca.issue { request with subjectAltName := text } p key now drawn = ca.issue request p key now drawn := by
  refine ⟨fun cert h => ?_, fun steps => ?_, fun text requested requested' hvalues hrequested hrequested' hkept => ?_⟩
  · obtain ⟨run⟩ := exists_issueRun h
    obtain ⟨requested, hrequested, hnames⟩ := run.altNameExtensions_eq huse hp
    refine ⟨requested, run.certificate, hrequested, run.decode?_zero,
      fun d hd => (run.decode?_eq_some_iff.1 hd).1, hnames.imp_right ?_⟩
    rintro ⟨hne, names, hstand, hextensions⟩
    have hascii : ∀ g ∈ names, g.IsAscii := by
      intro g hg
      obtain ⟨name, -, hname⟩ := exists_left_of_forall₂ hstand hg
      exact hname.isAscii
    have hread := run.altNames?_ofElement hascii (hextensions ▸ List.mem_singleton_self _)
    exact ⟨hne, _, names, hextensions, rfl, hread, hstand⟩
  · obtain ⟨hfails, hgives⟩ := steps.issue_of_altNames hp
    rw [← steps.exists_altNames_iff huse]
    -- With the other steps given, the names alone decide between the two results.
    cases hnames : steps.altNames with
    | error e =>
      have hissue := hfails e hnames
      obtain ⟨details, rfl⟩ := (steps.altNames_failsOnly e hnames).exists_eq
      exact ⟨⟨fun _ => nofun, fun _ => ⟨details, hissue⟩⟩, by simp [hissue], nofun⟩
    | ok g =>
      obtain ⟨cert, hcert⟩ := hgives g hnames
      exact ⟨⟨by simp [hcert], fun h => absurd ⟨g, rfl⟩ h⟩, fun _ => ⟨g, rfl⟩, fun _ => ⟨cert, hcert⟩⟩
  · refine issue_with_subjectAltName hvalues ?_
    rw [subjectAltNames_eq_ok_iff.2 ⟨requested, hrequested, rfl⟩]
    exact subjectAltNames_eq_ok_iff.2 ⟨requested', hrequested', hkept⟩

end Authority

namespace Sample

/-- A profile that keeps the names and the addresses of hosts. -/
def hostProfile : ResolvedProfile :=
  { profile with
    profile := { profile.profile with
      useSubjectAltName := true, useSubjectAltNameSubset := true, subjectAltNameSubset := [.dnsName, .ipAddress] } }

/-- The small request with a text of alternative names. -/
def namingRequest (text : String) : Request :=
  { request with subjectAltName := some text }

/-- One letter is no address. -/
lemma not_isEncodable : ¬ AltName.IsEncodable ⟨.ipAddress, "x"⟩ := by
  have hnone : (Text.ipAddress? (Text.trimmed "x")).isSome = false := by decide +kernel
  rw [AltName.IsEncodable, hnone]
  exact Bool.false_ne_true

/-- For an address that is none, everything else can be had. -/
lemma nonempty_otherSteps : Nonempty
    (Authority.OtherSteps authority (namingRequest "ip=x") hostProfile token.signingKey now [1, 2, 3]) := by
  have hprepared : (Validity.resolve now request hostProfile.profile none >>= fun window =>
      authority.prepareCertificate request hostProfile privateKey.publicKey.info .sha256WithRsa window
        [1, 2, 3]).isOk = true := by
    decide +kernel
  obtain ⟨tbs, h⟩ := exists_of_isOk hprepared
  obtain ⟨window, hwindow, h⟩ := bind_eq_ok_iff.1 h
  simp only [Authority.prepareCertificate, bind_eq_ok_iff, pure_eq_ok_iff] at h
  obtain ⟨subject, hsubject, names, hnames, issuer, hissuer, _, hwidth, es, hes, start, hstart, last, hlast, -⟩ := h
  have hnone : Authority.subjectAltNames request hostProfile = .ok [] := by decide +kernel
  cases hnone.symm.trans hnames
  refine ⟨⟨privateKey.publicKey.info, .sha256WithRsa, window, subject, issuer, es, start, last, rfl, rfl, hwindow,
    hsubject, hissuer, hwidth, hes, hstart, hlast, fun tbs htbs => ?_⟩⟩
  -- no signed part is put together, as the address would have to be encoded
  obtain ⟨parts, -⟩ := Authority.exists_isPrepared htbs
  have hone : Authority.subjectAltNames (namingRequest "ip=x") hostProfile = .ok [⟨.ipAddress, "x"⟩] := by
    decide +kernel
  obtain ⟨g, hg, -⟩ := ExtensionContext.filter_of_resolve parts.extensions_eq
    (ExtensionContext.mem_zip_subjectAltName _) (List.forall_mem_nil _)
  have hencodable := (ExtensionContext.exists_subjectAltName_iff rfl).1 ⟨g, hg⟩
  refine absurd (hencodable ⟨.ipAddress, "x"⟩ ?_) not_isEncodable
  rw [← Except.ok.inj (hone.symm.trans parts.altNames_eq)]
  exact List.mem_singleton_self _

end Sample

namespace Authority

/-- An address for mail that is not ASCII is dropped and does no harm, a host has its name and its address, and an
address that is none is refused. -/
theorem sample_alt_names : Sample.hostProfile.profile.useSubjectAltName = true ∧
    (∀ plugin ∈ Sample.hostProfile.plugins, plugin.oid ≠ Oid.subjectAltName) ∧
    (∃ cert c e, Sample.authority.issue (Sample.namingRequest "dns=a.example, email=ü@b, ip=10.0.0.1")
        Sample.hostProfile Sample.token.signingKey Sample.now [1, 2, 3] = .ok cert ∧
      Sample.authority.issue (Sample.namingRequest "dns=a.example, ip=10.0.0.1")
        Sample.hostProfile Sample.token.signingKey Sample.now [1, 2, 3] = .ok cert ∧
      Certificate.decode? cert.der 0 = some c ∧ c.altNameExtensions = [e] ∧
      e.altNames? = some [.dnsName "a.example", .ipAddress [10, 0, 0, 1]]) ∧
    ∃ details, Sample.authority.issue (Sample.namingRequest "ip=x") Sample.hostProfile Sample.token.signingKey
      Sample.now [1, 2, 3] = .error (.invalidSubject details) := by
  have hp : ∀ plugin ∈ Sample.hostProfile.plugins, plugin.oid ≠ Oid.subjectAltName := List.forall_mem_nil _
  have hissued : (Sample.authority.issue (Sample.namingRequest "dns=a.example, email=ü@b, ip=10.0.0.1")
      Sample.hostProfile Sample.token.signingKey Sample.now [1, 2, 3]).isOk = true := by
    decide +kernel
  obtain ⟨cert, h⟩ := exists_of_isOk hissued
  have hkept : Sample.hostProfile.profile.keptNames
      [⟨.dnsName, "a.example"⟩, ⟨.rfc822Name, "ü@b"⟩, ⟨.ipAddress, "10.0.0.1"⟩] =
        [⟨.dnsName, "a.example"⟩, ⟨.ipAddress, "10.0.0.1"⟩] := by
    decide +kernel
  have hparsed : AltName.parse "dns=a.example, email=ü@b, ip=10.0.0.1" =
      .ok [⟨.dnsName, "a.example"⟩, ⟨.rfc822Name, "ü@b"⟩, ⟨.ipAddress, "10.0.0.1"⟩] := by
    decide +kernel
  have hparsed' : AltName.parse "dns=a.example, ip=10.0.0.1" =
      .ok [⟨.dnsName, "a.example"⟩, ⟨.ipAddress, "10.0.0.1"⟩] := by
    decide +kernel
  obtain ⟨hresult, -, hdropped⟩ := @alt_names_as_requested Sample.authority
    (Sample.namingRequest "dns=a.example, email=ü@b, ip=10.0.0.1") Sample.hostProfile Sample.token.signingKey
    Sample.now [1, 2, 3] rfl hp
  obtain ⟨requested, c, hrequested, hdecode, -, hnames⟩ := hresult cert h
  cases hrequested.symm.trans hparsed
  rw [hkept] at hnames
  obtain ⟨hnil, -⟩ | ⟨-, e, names, hextensions, -, hread, hstand⟩ := hnames
  · cases hnil
  have hencoded : AltName.toGeneralNames Sample.authority.dnEncoding
      [⟨.dnsName, "a.example"⟩, ⟨.ipAddress, "10.0.0.1"⟩] =
        .ok [.dnsName "a.example", .ipAddress [10, 0, 0, 1]] := by
    decide +kernel
  cases (AltName.toGeneralNames_eq_ok_iff.2 hstand).symm.trans hencoded
  have hsame := hdropped (some "dns=a.example, ip=10.0.0.1") _ _ (List.forall_mem_nil _) hparsed hparsed'
    (by decide +kernel)
  obtain ⟨steps⟩ := Sample.nonempty_otherSteps
  have hrefused := (alt_names_as_requested rfl hp).2.1 steps
  have hnone : ¬ HasAltNames (Sample.namingRequest "ip=x") Sample.hostProfile.profile := by
    rintro ⟨requested, hrequested, hencodable⟩
    have hparsed : AltName.parse "ip=x" = .ok [⟨.ipAddress, "x"⟩] := by decide +kernel
    cases hrequested.symm.trans hparsed
    exact Sample.not_isEncodable (hencodable ⟨.ipAddress, "x"⟩ (by decide +kernel))
  exact ⟨rfl, hp, ⟨cert, c, e, h, hsame.trans h, hdecode, hextensions, hread⟩, hrefused.1.2 hnone⟩

end Authority

end CertAuthority
