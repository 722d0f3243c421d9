import CertAuthority.Proofs.Certificate.Run
import CertAuthority.Proofs.Config.Loaded
import CertAuthority.Proofs.Extension.DistributionPoints
import CertAuthority.Proofs.Extension.QcStatements
import CertAuthority.Proofs.Extension.Registered
import CertAuthority.Proofs.Extension.Resolve

/-!
# Extensions of a loaded configuration

Loading is meant to find every text that cannot stand in a certificate. What it leaves over is made
precise here: with a loaded configuration, plugins that do not clash and a request in order, the extensions
exist exactly if three kinds of texts fit their string types (`exists_resolve_iff_of_isLoaded`).
-/

namespace CertAuthority

open Der

namespace Registry

variable {registry : Registry} {id : Nat} {plugin : Plugin}

/-- A plugin that is found is registered under the number. -/
lemma mem_of_find? (h : registry.find? id = some plugin) : (id, plugin) ∈ registry.plugins := by
  obtain ⟨before, after, hr, -⟩ := List.lookup_eq_some_iff.1 h
  rw [hr]
  exact List.mem_append_right _ List.mem_cons_self

/-- Plugins that are found under different numbers have different identifiers. -/
lemma nodup_of_find? {ids : List Nat} {plugins : List Plugin}
    (h : List.Forall₂ (fun id plugin => registry.find? id = some plugin) ids plugins)
    (distinct : (registry.plugins.map (·.2.oid)).Nodup) (once : ids.Nodup) :
    (plugins.map (·.oid)).Nodup := by
  induction h with
  | nil => exact List.nodup_nil
  | @cons id plugin ids plugins hid htail ih =>
    obtain ⟨hnew, once⟩ := List.nodup_cons.1 once
    rw [List.map_cons, List.nodup_cons]
    refine ⟨?_, ih once⟩
    intro hmem
    obtain ⟨other, hother, hoid⟩ := List.mem_map.1 hmem
    -- a plugin further on with the same identifier would have been found under the same number
    obtain ⟨id', hid', hfound⟩ := exists_left_of_forall₂ htail hother
    have same := List.inj_on_of_nodup_map distinct (mem_of_find? hid) (mem_of_find? hfound) hoid.symm
    cases same
    exact hnew hid'

end Registry

namespace ExtensionContext

/-- A configuration that was loaded, with plugins of fixed values that do not clash with anything and a
request whose alternative names and directory attributes are in order. -/
structure IsLoaded (registry : Registry) (c : ExtensionContext) : Prop where
  authority : c.ca.validate = .ok ()
  profile : ResolvedProfile.resolve registry c.profile = .ok c.resolved
  fixed : ∀ entry ∈ registry.plugins, entry.2.IsFixed
  distinct : (builtInIdentifiers ++ registry.plugins.map (·.2.oid)).Nodup
  once : c.profile.certificateExtensions.Nodup
  altNames : ∃ names, AltName.toGeneralNames c.ca.dnEncoding c.altNames = .ok names
  attributes : ∃ as, DirectoryAttribute.parse (c.request.directoryAttributes.getD "") = .ok as

/-- The texts that loading lets through and that must still fit the string types that they are written
in: the profile's own issuers of revocation lists, the place to ask for the status, and the names of
those who register names. Each counts only where the profile uses it. -/
structure Fits (c : ExtensionContext) : Prop where
  crlIssuers : c.profile.useCrlDistributionPoint = true →
    c.profile.useDefaultCrlDistributionPoint = false →
      ∀ text ∈ Text.entries c.profile.crlIssuer, ∃ name, c.crlIssuer text = .ok name
  statusPlace : c.profile.useOcspServiceLocator = true → Text.isAscii c.statusPlace = true
  raNames : c.profile.useQcStatements = true →
    ∃ names, AltName.toGeneralNames c.ca.dnEncoding c.resolved.parsed.qcRaNames = .ok names

variable {registry : Registry} {c : ExtensionContext}

/-- The texts of a loaded profile are parsed. -/
lemma IsLoaded.isParsed (h : c.IsLoaded registry) : c.profile.IsParsed c.resolved.parsed :=
  Profile.isParsed_of_parse (ResolvedProfile.of_resolve h.profile).2.1

/-- The identifiers of a loaded configuration differ from each other. -/
lemma IsLoaded.nodup_identifiers (h : IsLoaded registry c) : c.identifiers.Nodup := by
  have looked := (ResolvedProfile.resolve_eq_ok_iff.1 h.profile).2.2
  obtain ⟨builtIn, registered, apart⟩ := List.nodup_append.1 h.distinct
  refine List.nodup_append.2 ⟨builtIn, Registry.nodup_of_find? looked registered h.once, ?_⟩
  intro id hid other hother
  obtain ⟨plugin, hplugin, rfl⟩ := List.mem_map.1 hother
  obtain ⟨number, -, hfound⟩ := exists_left_of_forall₂ looked hplugin
  exact apart id hid _ (List.mem_map.2 ⟨_, Registry.mem_of_find? hfound, rfl⟩)

/-- A place can be written exactly if it is ASCII. -/
lemma exists_asciiPlace_iff {text : String} :
    (∃ uri, asciiPlace text = .ok uri) ↔ Text.isAscii text = true := by
  unfold asciiPlace
  split
  · rename_i hascii
    exact ⟨fun _ => hascii, fun _ => ⟨text, rfl⟩⟩
  · rename_i hascii
    exact ⟨nofun, fun h => absurd h hascii⟩

/-! ### The sources of a loaded configuration -/

/-- The places of revocation lists were checked as they are used, and so were the issuers of the
authority. The issuers of a profile are checked before it is known how names are written. -/
lemma IsLoaded.exists_crlDistributionPoints_iff (h : IsLoaded registry c) :
    (∃ g, c.crlDistributionPoints = .ok g) ↔
      (c.profile.useCrlDistributionPoint = true → c.profile.useDefaultCrlDistributionPoint = false →
        ∀ text ∈ Text.entries c.profile.crlIssuer, ∃ name, c.crlIssuer text = .ok name) := by
  have checked := Authority.isChecked_of_validate h.authority
  have places : ∃ uris, (Text.entries c.crlPlaces.1).mapM asciiPlace = .ok uris := by
    apply exists_mapM_eq_ok_iff.2
    intro uri hu
    apply exists_asciiPlace_iff.2
    unfold crlPlaces at hu
    split at hu
    · exact checked.crlPlaces uri hu
    · exact h.isParsed.crlPlaces uri hu
  have issuers : (∃ names, (Text.entries c.crlPlaces.2).mapM c.crlIssuer = .ok names) ↔
      (c.profile.useDefaultCrlDistributionPoint = false →
        ∀ text ∈ Text.entries c.profile.crlIssuer, ∃ name, c.crlIssuer text = .ok name) := by
    rw [exists_mapM_eq_ok_iff]
    unfold crlPlaces
    cases c.profile.useDefaultCrlDistributionPoint with
    | false => simp
    | true =>
      refine ⟨nofun, fun _ text ht => ?_⟩
      obtain ⟨dn, name, hdn, hname⟩ := checked.crlIssuers text ht
      exact ⟨name, mapError_eq_ok_iff.2 (bind_eq_ok_iff.2 ⟨dn, hdn, hname⟩)⟩
  rw [ExtensionContext.exists_crlDistributionPoints_iff, ← issuers]
  exact imp_congr_right fun _ => and_iff_left places

/-- An extension that needs one computation can be computed exactly if that goes through. -/
lemma exists_bind_pure_iff {α β : Type} {x : Except Error α} {f : α → β} :
    (∃ b, (do return f (← x) : Except Error β) = .ok b) ↔ ∃ a, x = .ok a := by
  cases x with
  | error e => exact ⟨nofun, nofun⟩
  | ok a => exact ⟨fun _ => ⟨a, rfl⟩, fun _ => ⟨f a, rfl⟩⟩

/-- The place for the status can be written exactly if it is off or ASCII, as the empty place is. -/
lemma exists_authorityInfoAccess_iff :
    (∃ g, c.authorityInfoAccess = .ok g) ↔
      (c.profile.useOcspServiceLocator = true → Text.isAscii c.statusPlace = true) := by
  rw [authorityInfoAccess, exists_whenever_iff, exists_bind_pure_iff, exists_asciiPlace_iff,
    Bool.and_eq_true]
  constructor
  · intro h huse
    by_cases hempty : c.statusPlace.isEmpty = true
    · rw [String.isEmpty_iff.1 hempty]
      rfl
    · exact h ⟨huse, by simpa using hempty⟩
  · intro h huse
    exact h huse.1

/-- The place of the practice statement was checked with its outer blanks, which it loses. -/
lemma IsLoaded.exists_certificatePolicies (h : IsLoaded registry c) : ∃ g, c.certificatePolicies = .ok g := by
  rw [certificatePolicies, exists_whenever_iff, exists_bind_pure_iff]
  intro _
  rw [policyQualifiers, exists_bind_pure_iff, exists_asciiPlace_iff]
  exact Text.isAscii_trimmed h.isParsed.cpsUrl

/-- The name of a template was checked in the same way. -/
lemma IsLoaded.exists_templateName (h : IsLoaded registry c) : ∃ g, c.templateName = .ok g := by
  rw [templateName, exists_whenever_iff, exists_bind_pure_iff, exists_asciiPlace_iff]
  intro _
  exact Text.isAscii_trimmed h.isParsed.template

/-- The currency was checked as it is used. The names of those who register names are only parsed when the
profile is loaded. -/
lemma IsLoaded.exists_qcStatements_iff (h : IsLoaded registry c) :
    (∃ g, c.qcStatements = .ok g) ↔
      (c.profile.useQcStatements = true →
        ∃ names, AltName.toGeneralNames c.ca.dnEncoding c.resolved.parsed.qcRaNames = .ok names) := by
  rw [qcStatements, exists_whenever_iff, exists_bind_pure_iff]
  refine imp_congr_right fun _ => ?_
  rw [QcStatement.statements_eq h.isParsed.currency, exists_bind_pure_iff]
  simp only [ParsedProfile.underHeading, mapError_eq_ok_iff]

/-- The directory attributes of a request in order can be written. -/
lemma IsLoaded.exists_subjectDirectoryAttributes (h : IsLoaded registry c) :
    ∃ g, c.subjectDirectoryAttributes = .ok g := by
  obtain ⟨as, has⟩ := h.attributes
  unfold subjectDirectoryAttributes
  split
  · rw [underHeading, mapError_eq_ok_iff.2 has, ok_bind]
    exact exists_whenever_iff.2 fun _ => ⟨_, rfl⟩
  · exact ⟨none, rfl⟩

/-- The alternative names of a request in order can be written. -/
lemma IsLoaded.exists_subjectAltName (h : IsLoaded registry c) : ∃ g, c.subjectAltName = .ok g := by
  obtain ⟨names, hnames⟩ := h.altNames
  rw [subjectAltName, exists_whenever_iff, exists_bind_pure_iff]
  intro _
  exact ⟨names, mapError_eq_ok_iff.2 hnames⟩

/-- The plugins of a loaded configuration do not fail. -/
lemma IsLoaded.exists_pluginExtension (h : IsLoaded registry c) {plugin : Plugin}
    (hp : plugin ∈ c.resolved.plugins) : ∃ g, c.pluginExtension plugin = .ok g := by
  have looked := (ResolvedProfile.resolve_eq_ok_iff.1 h.profile).2.2
  obtain ⟨number, -, hfound⟩ := exists_left_of_forall₂ looked hp
  obtain ⟨octets, hvalue⟩ := (h.fixed _ (Registry.mem_of_find? hfound)).exists_value
  rw [pluginExtension, exists_bind_pure_iff]
  exact ⟨octets, hvalue c.request c.ca c.profile⟩

/-- With a loaded configuration, the extensions of a certificate exist exactly if the texts that loading
lets through fit their string types. No other text of the profile or the authority makes them fail. -/
theorem exists_resolve_iff_of_isLoaded (h : IsLoaded registry c) :
    (∃ es, c.resolve = .ok es) ↔ c.Fits := by
  have element {condition : Bool} {e : Extension} : ∃ g, whenever condition (.ok e) = .ok g :=
    exists_whenever_iff.2 fun _ => ⟨e, rfl⟩
  rw [exists_resolve_iff h.nodup_identifiers]
  simp only [sources, List.forall_mem_append, List.forall_mem_cons, List.forall_mem_map,
    h.exists_crlDistributionPoints_iff, exists_authorityInfoAccess_iff, h.exists_qcStatements_iff]
  constructor
  · rintro ⟨⟨-, -, -, -, -, -, -, crlIssuers, statusPlace, -, raNames, -, -⟩, -⟩
    exact ⟨crlIssuers, statusPlace, raNames⟩
  · intro fits
    refine ⟨⟨element, element, element, element, element, h.exists_subjectAltName, h.exists_certificatePolicies,
      fits.crlIssuers, fits.statusPlace, h.exists_templateName, fits.raNames,
      h.exists_subjectDirectoryAttributes, List.forall_mem_nil _⟩, ?_⟩
    intro plugin hp
    exact h.exists_pluginExtension hp

end ExtensionContext

namespace Sample

/-- The small request under a small authority and a profile that are read from texts. -/
def loadedContext (profileText : String) : Except Error ExtensionContext := do
  let ca ← Authority.ofToml "subject_dn = \"CN=CA\""
  let resolved ← ResolvedProfile.resolve {} (← Profile.ofToml profileText)
  return { request, altNames := [], resolved, ca, signerKey := request.publicKey }

/-- A context that is read from a text is loaded, without plugins and without wishes. -/
lemma isLoaded_of_loadedContext {profileText : String} {c : ExtensionContext}
    (h : loadedContext profileText = .ok c) : c.IsLoaded {} := by
  simp only [loadedContext, bind_eq_ok_iff, pure_eq_ok_iff] at h
  obtain ⟨ca, hca, profile, -, resolved, hresolved, rfl⟩ := h
  obtain ⟨rfl, -, looked⟩ := ResolvedProfile.resolve_eq_ok_iff.1 hresolved
  have once : resolved.profile.certificateExtensions.Nodup := by
    cases hids : resolved.profile.certificateExtensions with
    | nil => exact List.nodup_nil
    | cons id ids =>
      rw [hids] at looked
      obtain ⟨plugin, -, hfound, -⟩ := List.forall₂_cons_left_iff.1 looked
      cases hfound
  have attributes : DirectoryAttribute.parse "" = .ok [] := by decide +kernel
  exact {
    authority := Authority.validate_of_ofToml hca
    profile := hresolved
    fixed := nofun
    distinct := by decide +kernel
    once := once
    altNames := ⟨[], rfl⟩
    attributes := ⟨[], attributes⟩ }

/-- The profile loads, and a certificate under it cannot have its extensions. -/
def LoadsInVain (profileText : String) : Prop :=
  ∃ c, loadedContext profileText = .ok c ∧ c.IsLoaded {} ∧ ¬ ∃ es, c.resolve = .ok es

/-- A profile loads in vain if computing the extensions says so. -/
lemma loadsInVain_of_resolve {profileText : String}
    (h : (loadedContext profileText).map (·.resolve.isOk) = .ok false) : LoadsInVain profileText := by
  obtain ⟨c, hc, hfail⟩ := map_eq_ok_iff.1 h
  refine ⟨c, hc, isLoaded_of_loadedContext hc, ?_⟩
  rintro ⟨es, hes⟩
  rw [hes] at hfail
  cases hfail

end Sample

namespace ExtensionContext

/-- A profile that loads and whose names of those who register names can be written. -/
theorem sample_resolves :
    ∃ c, Sample.loadedContext "use_qc_statements = true\n[qc_statements]\nra_name = \"dns=a\"" = .ok c ∧
      c.IsLoaded {} ∧ c.Fits ∧ ∃ es, c.resolve = .ok es := by
  have hok : (Sample.loadedContext "use_qc_statements = true\n[qc_statements]\nra_name = \"dns=a\"" >>=
      resolve).isOk = true := by
    decide +kernel
  obtain ⟨es, hes⟩ := exists_of_isOk hok
  obtain ⟨c, hc, hresolve⟩ := bind_eq_ok_iff.1 hes
  have hloaded := Sample.isLoaded_of_loadedContext hc
  have hfits := (exists_resolve_iff_of_isLoaded hloaded).1 ⟨es, hresolve⟩
  exact ⟨c, hc, hloaded, hfits, (exists_resolve_iff_of_isLoaded hloaded).2 hfits⟩

/-- Profiles that load in vain: a country with a character that it cannot have, an address that is none,
and places with a blank between them that is not ASCII. -/
theorem exists_isLoaded_without_extensions :
    Sample.LoadsInVain "use_crl_distribution_point = true\ncrl_issuer = \"C=S_E\"" ∧
      Sample.LoadsInVain "use_qc_statements = true\n[qc_statements]\nra_name = \"ip=1\"" ∧
      Sample.LoadsInVain
        "use_ocsp_service_locator = true\nocsp_service_locator_uri = \"http://a \u00a0;http://b\"" := by
  refine ⟨?crlIssuer, ?raName, ?statusPlace⟩
  case crlIssuer => exact Sample.loadsInVain_of_resolve (by decide +kernel)
  case raName => exact Sample.loadsInVain_of_resolve (by decide +kernel)
  case statusPlace => exact Sample.loadsInVain_of_resolve (by decide +kernel)

end ExtensionContext

end CertAuthority
