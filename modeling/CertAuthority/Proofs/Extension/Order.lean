import CertAuthority.Proofs.Certificate.Run
import CertAuthority.Proofs.Extension.DistributionPoints
import CertAuthority.Proofs.Extension.Resolve
import CertAuthority.Proofs.Text.Content

/-!
# Which extensions a certificate has, and in which order

A certificate has an extension that is built in exactly if the profile turns it on and there is something to
put into it (`ExtensionContext.Includes`). These come first, in one order for all certificates, and the
plugins of the profile follow in theirs (`ExtensionContext.resolve_in_order`).
-/

namespace CertAuthority

open Der

/-- The extensions that are built in. -/
inductive BuiltIn where
  | basicConstraints
  | keyUsage
  | extendedKeyUsage
  | subjectKeyIdentifier
  | authorityKeyIdentifier
  | subjectAltName
  | certificatePolicies
  | crlDistributionPoints
  | authorityInfoAccess
  | templateName
  | qcStatements
  | subjectDirectoryAttributes
deriving DecidableEq, Repr

namespace BuiltIn

/-- The extensions that are built in, in the order in which certificates have them. -/
def all : List BuiltIn :=
  [basicConstraints, keyUsage, extendedKeyUsage, subjectKeyIdentifier, authorityKeyIdentifier,
   subjectAltName, certificatePolicies, crlDistributionPoints, authorityInfoAccess, templateName,
   qcStatements, subjectDirectoryAttributes]

/-- The identifier of an extension that is built in. -/
def oid : BuiltIn → Oid
  | basicConstraints => Oid.basicConstraints
  | keyUsage => Oid.keyUsage
  | extendedKeyUsage => Oid.extendedKeyUsage
  | subjectKeyIdentifier => Oid.subjectKeyIdentifier
  | authorityKeyIdentifier => Oid.authorityKeyIdentifier
  | subjectAltName => Oid.subjectAltName
  | certificatePolicies => Oid.certificatePolicies
  | crlDistributionPoints => Oid.crlDistributionPoints
  | authorityInfoAccess => Oid.authorityInfoAccess
  | templateName => Oid.certificateTemplateName
  | qcStatements => Oid.qcStatements
  | subjectDirectoryAttributes => Oid.subjectDirectoryAttributes

/-- What gives an extension. -/
def source (c : ExtensionContext) : BuiltIn → Except Error (Option Extension)
  | basicConstraints => c.basicConstraints
  | keyUsage => c.keyUsage
  | extendedKeyUsage => c.extendedKeyUsage
  | subjectKeyIdentifier => c.subjectKeyIdentifier
  | authorityKeyIdentifier => c.authorityKeyIdentifier
  | subjectAltName => c.subjectAltName
  | certificatePolicies => c.certificatePolicies
  | crlDistributionPoints => c.crlDistributionPoints
  | authorityInfoAccess => c.authorityInfoAccess
  | templateName => c.templateName
  | qcStatements => c.qcStatements
  | subjectDirectoryAttributes => c.subjectDirectoryAttributes

end BuiltIn

namespace ExtensionContext

/-- The texts of the places and of the issuers of revocation lists that a profile selects. -/
def selectedCrlPlaces (c : ExtensionContext) : String × String :=
  match c.profile.useDefaultCrlDistributionPoint with
  | true => (c.ca.defaultCrlDistributionPoint, c.ca.defaultCrlIssuer)
  | false => (c.profile.crlDistributionPointUri, c.profile.crlIssuer)

/-- The text of the place where the status can be asked for that a profile selects. -/
def selectedStatusPlace (c : ExtensionContext) : String :=
  match c.profile.useDefaultOcspServiceLocator with
  | true => c.ca.defaultOcspLocator
  | false => c.profile.ocspServiceLocatorUri

/-- The uses of the key that count: those of the request, if it names some and may do so, else those of the
profile. -/
def chosenKeyUsage (c : ExtensionContext) : KeyUsage :=
  match c.profile.allowKeyUsageOverride with
  | true => c.request.keyUsage.getD c.profile.keyUsage
  | false => c.profile.keyUsage

/-- Whether a certificate has an extension that is built in: the profile turns it on, and where it may be
empty it is not. -/
def Includes (c : ExtensionContext) : BuiltIn → Prop
  | .basicConstraints => c.profile.useBasicConstraints = true
  | .keyUsage => c.profile.useKeyUsage = true ∧ c.chosenKeyUsage ≠ []
  | .extendedKeyUsage =>
    c.profile.useExtendedKeyUsage = true ∧ c.resolved.parsed.extendedKeyUsage ≠ []
  | .subjectKeyIdentifier => c.profile.useSubjectKeyIdentifier = true
  | .authorityKeyIdentifier => c.profile.useAuthorityKeyIdentifier = true
  | .subjectAltName => c.profile.useSubjectAltName = true ∧ c.altNames ≠ []
  | .certificatePolicies =>
    c.profile.useCertificatePolicies = true ∧ c.resolved.parsed.policyIds ≠ []
  | .crlDistributionPoints =>
    c.profile.useCrlDistributionPoint = true ∧
      (Text.HasEntry c.selectedCrlPlaces.1 ∨ Text.HasEntry c.selectedCrlPlaces.2)
  | .authorityInfoAccess =>
    c.profile.useOcspServiceLocator = true ∧ Text.HasContent c.selectedStatusPlace.toList
  | .templateName =>
    c.profile.useMicrosoftTemplate = true ∧ Text.HasContent c.profile.microsoftTemplate.toList
  | .qcStatements => c.profile.useQcStatements = true
  | .subjectDirectoryAttributes =>
    c.profile.useSubjectDirectoryAttributes = true ∧
      Text.HasComponent (c.request.directoryAttributes.getD "")

instance (c : ExtensionContext) : DecidablePred c.Includes
  | .basicConstraints => inferInstanceAs (Decidable (_ = true))
  | .keyUsage => inferInstanceAs (Decidable (_ ∧ _))
  | .extendedKeyUsage => inferInstanceAs (Decidable (_ ∧ _))
  | .subjectKeyIdentifier => inferInstanceAs (Decidable (_ = true))
  | .authorityKeyIdentifier => inferInstanceAs (Decidable (_ = true))
  | .subjectAltName => inferInstanceAs (Decidable (_ ∧ _))
  | .certificatePolicies => inferInstanceAs (Decidable (_ ∧ _))
  | .crlDistributionPoints => inferInstanceAs (Decidable (_ ∧ (_ ∨ _)))
  | .authorityInfoAccess => inferInstanceAs (Decidable (_ ∧ _))
  | .templateName => inferInstanceAs (Decidable (_ ∧ _))
  | .qcStatements => inferInstanceAs (Decidable (_ = true))
  | .subjectDirectoryAttributes => inferInstanceAs (Decidable (_ ∧ _))

variable {c : ExtensionContext} {es : List Extension}

/-! ### Each source gives its extension exactly if it is included -/

/-- What can be off gives an extension exactly where it is on. -/
lemma isSome_of_whenever {condition : Bool} {e : Except Error Extension} {g : Option Extension}
    (h : whenever condition e = .ok g) : g.isSome = true ↔ condition = true := by
  obtain ⟨rfl, e, -, rfl⟩ | ⟨rfl, rfl⟩ := whenever_eq_ok_iff.1 h
  · simp
  · simp

/-- The uses of the key are those of the request where it may choose, and else those of the profile. -/
lemma effectiveKeyUsage_eq (c : ExtensionContext) : c.effectiveKeyUsage = c.chosenKeyUsage := by
  unfold effectiveKeyUsage chosenKeyUsage
  cases c.profile.allowKeyUsageOverride <;> cases c.request.keyUsage <;> rfl

/-- The places and issuers of revocation lists come from the authority or the profile, as the profile says. -/
lemma crlPlaces_eq (c : ExtensionContext) : c.crlPlaces = c.selectedCrlPlaces := by
  unfold crlPlaces selectedCrlPlaces
  cases c.profile.useDefaultCrlDistributionPoint <;> rfl

/-- The place for the status comes from the authority or the profile and loses its outer blanks. -/
lemma statusPlace_eq (c : ExtensionContext) : c.statusPlace = Text.trimmed c.selectedStatusPlace := by
  unfold statusPlace selectedStatusPlace
  cases c.profile.useDefaultOcspServiceLocator <;> rfl

/-- There are distribution points exactly if they are included. -/
lemma isSome_of_crlDistributionPoints {g : Option Extension} (h : c.crlDistributionPoints = .ok g) :
    g.isSome = true ↔ c.Includes .crlDistributionPoints := by
  by_cases huse : c.profile.useCrlDistributionPoint = true
  · have hincludes : c.Includes .crlDistributionPoints ↔
        Text.entries c.crlPlaces.1 ≠ [] ∨ Text.entries c.crlPlaces.2 ≠ [] := by
      rw [crlPlaces_eq, Text.entries_ne_nil_iff, Text.entries_ne_nil_iff]
      exact and_iff_right huse
    rw [hincludes]
    obtain ⟨issuers, -, -, ⟨huris, htexts, rfl⟩ | ⟨hsome, rfl⟩⟩ := (crlDistributionPoints_eq_ok_iff huse).1 h
    · simp [huris, htexts]
    · simpa using hsome
  · rw [crlDistributionPoints, if_neg huse] at h
    cases h
    exact iff_of_false Bool.false_ne_true fun hc => huse hc.1

/-- There are directory attributes exactly if they are included. -/
lemma isSome_of_subjectDirectoryAttributes {g : Option Extension}
    (h : c.subjectDirectoryAttributes = .ok g) :
    g.isSome = true ↔ c.Includes .subjectDirectoryAttributes := by
  unfold subjectDirectoryAttributes at h
  split at h
  · rename_i huse
    obtain ⟨attributes, hattributes, h⟩ := bind_eq_ok_iff.1 h
    have hcomponents := Text.components_ne_nil_iff (mapError_eq_ok_iff.1 hattributes)
    have hattributes : (!attributes.isEmpty) = true ↔ attributes ≠ [] := by simp
    rw [isSome_of_whenever h, hattributes, hcomponents]
    exact (and_iff_right huse).symm
  · rename_i huse
    cases h
    exact ⟨nofun, fun hc => absurd hc.1 huse⟩

/-- A source gives its extension exactly if the extension is included. -/
lemma isSome_iff_includes {b : BuiltIn} {g : Option Extension} (h : b.source c = .ok g) :
    g.isSome = true ↔ c.Includes b := by
  cases b with
  | basicConstraints => exact isSome_of_whenever h
  | keyUsage =>
    rw [isSome_of_whenever h, effectiveKeyUsage_eq]
    simp [Includes]
  | extendedKeyUsage =>
    rw [isSome_of_whenever h]
    simp [Includes]
  | subjectKeyIdentifier => exact isSome_of_whenever h
  | authorityKeyIdentifier => exact isSome_of_whenever h
  | subjectAltName =>
    rw [isSome_of_whenever h]
    simp [Includes]
  | certificatePolicies =>
    rw [isSome_of_whenever h]
    simp [Includes]
  | crlDistributionPoints => exact isSome_of_crlDistributionPoints h
  | authorityInfoAccess =>
    rw [isSome_of_whenever h, Bool.and_eq_true, Bool.not_eq_true', statusPlace_eq,
      Text.isEmpty_trimmed_iff]
    rfl
  | templateName =>
    rw [isSome_of_whenever h, Bool.and_eq_true, Bool.not_eq_true', Text.isEmpty_trimmed_iff]
    rfl
  | qcStatements => exact isSome_of_whenever h
  | subjectDirectoryAttributes => exact isSome_of_subjectDirectoryAttributes h

/-! ### What the sources give, in order -/

/-- Each of the extensions that are built in has its own identifier. -/
lemma gives_source (c : ExtensionContext) (b : BuiltIn) : Gives b.oid (b.source c) := by
  have hall : List.Forall₂ Gives (BuiltIn.all.map BuiltIn.oid) (BuiltIn.all.map (BuiltIn.source c)) :=
    c.forall₂_builtInSources
  rw [List.forall₂_map_left_iff, List.forall₂_map_right_iff, List.forall₂_same] at hall
  apply hall
  cases b <;> decide

/-- What the sources of some extensions give has the identifiers of those that are included. -/
lemma map_oid_of_sources {bs : List BuiltIn} {given : List (Option Extension)}
    (h : given.map .ok = bs.map (BuiltIn.source c)) :
    given.reduceOption.map (·.oid) = (bs.filter fun b => c.Includes b).map BuiltIn.oid := by
  induction bs generalizing given with
  | nil =>
    rw [List.map_eq_nil_iff.1 h]
    rfl
  | cons b bs ih =>
    obtain ⟨g, rest, rfl, hb, hrest⟩ := List.map_eq_cons_iff.1 h
    have hincludes := isSome_iff_includes hb.symm
    cases g with
    | none =>
      have hb : ¬ c.Includes b := fun hi => Bool.false_ne_true (hincludes.2 hi)
      rw [List.reduceOption_cons_of_none, ih hrest, List.filter_cons_of_neg (by simpa using hb)]
    | some e =>
      have hi : c.Includes b := hincludes.1 rfl
      have hoid : e.oid = b.oid := c.gives_source b e hb.symm
      rw [List.reduceOption_cons_of_some, List.map_cons, ih hrest, hoid,
        List.filter_cons_of_pos (by simpa using hi), List.map_cons]

/-- An extension that a plugin adds to a certificate. -/
structure IsAddedBy (c : ExtensionContext) (plugin : Plugin) (e : Extension) : Prop where
  oid : e.oid = plugin.oid
  critical : e.critical = plugin.critical
  value : plugin.value c.request c.ca c.profile = .ok e.value

/-- Plugins that do not fail add one extension each, in their order. -/
lemma isAddedBy_of_plugins {plugins : List Plugin} {given : List (Option Extension)}
    (h : given.map .ok = plugins.map c.pluginExtension) :
    List.Forall₂ c.IsAddedBy plugins given.reduceOption := by
  induction plugins generalizing given with
  | nil =>
    rw [List.map_eq_nil_iff.1 h]
    exact .nil
  | cons plugin plugins ih =>
    obtain ⟨g, rest, rfl, hg, hrest⟩ := List.map_eq_cons_iff.1 h
    obtain ⟨value, hvalue, hg⟩ := bind_eq_ok_iff.1 hg.symm
    cases hg
    rw [List.reduceOption_cons_of_some]
    exact .cons ⟨rfl, rfl, hvalue⟩ (ih hrest)

/-- The names that the profile leaves of those that were requested: all, or those of some kinds. -/
lemma altNames_ne_nil_iff {request : Request} {p : ResolvedProfile} {requested kept : List AltName}
    (hparse : AltName.parse (request.subjectAltName.getD "") = .ok requested)
    (hkept : Authority.subjectAltNames request p = .ok kept) :
    kept ≠ [] ↔ ∃ name ∈ requested, p.profile.useSubjectAltNameSubset = true →
      name.kind ∈ p.profile.subjectAltNameSubset := by
  have hnames : underHeading "subject alternative name"
      (AltName.parse (request.subjectAltName.getD "")) = .ok requested := mapError_eq_ok_iff.2 hparse
  rw [Authority.subjectAltNames, hnames, ok_bind, pure_eq_ok_iff] at hkept
  subst hkept
  split
  · rename_i huse
    simp [AltName.retainKinds, huse]
  · rename_i huse
    simp only [huse, Bool.false_eq_true, false_implies, and_true]
    exact ⟨List.exists_mem_of_ne_nil _, fun ⟨_, hmem⟩ => List.ne_nil_of_mem hmem⟩

/-- The extensions of a certificate are those that are built in and included, in their fixed order, and
after them what the plugins of the profile add, in the order of the profile. No identifier comes twice.
Alternative names are included exactly if the profile leaves one of those that were requested. -/
theorem resolve_in_order (h : c.resolve = .ok es) :
    (es.map (·.oid)).Nodup ∧
    (∃ builtIn added, es = builtIn ++ added ∧
      builtIn.map (·.oid) = (BuiltIn.all.filter fun b => c.Includes b).map BuiltIn.oid ∧
      List.Forall₂ c.IsAddedBy c.resolved.plugins added) ∧
    ∀ requested, AltName.parse (c.request.subjectAltName.getD "") = .ok requested →
      Authority.subjectAltNames c.request c.resolved = .ok c.altNames →
        (c.Includes .subjectAltName ↔ c.profile.useSubjectAltName = true ∧
          ∃ name ∈ requested, c.profile.useSubjectAltNameSubset = true →
            name.kind ∈ c.profile.subjectAltNameSubset) := by
  obtain ⟨given, hsources, rfl, hdistinct⟩ := resolve_eq_ok_iff.1 h
  refine ⟨hdistinct, ?_, ?_⟩
  · obtain ⟨first, last, rfl, hfirst, hlast⟩ := List.map_eq_append_iff.1 hsources.symm
    have hsources : first.map .ok = BuiltIn.all.map (BuiltIn.source c) := hfirst
    rw [List.reduceOption_append]
    exact ⟨_, _, rfl, map_oid_of_sources hsources, isAddedBy_of_plugins hlast⟩
  · intro requested hparse hkept
    exact and_congr_right fun _ => altNames_ne_nil_iff hparse hkept

end ExtensionContext

/-- A context in which much is turned on: of the revocation lists only an issuer is given, and the name of
the template is blank. -/
def Sample.busyContext : ExtensionContext where
  request := { request with
    subjectAltName := some "dns=a"
    keyUsage := some []
    directoryAttributes := some " , gender=f" }
  altNames := [⟨.dnsName, "a"⟩]
  resolved := {
    profile := {
      useCertificatePolicies := true
      useCrlDistributionPoint := true
      crlDistributionPointUri := " ; "
      crlIssuer := "; CN=c"
      useMicrosoftTemplate := true
      microsoftTemplate := " "
      useQcStatements := true
      useSubjectDirectoryAttributes := true }
    parsed := { policyIds := [Oid.anyExtendedKeyUsage] }
    plugins := [⟨Oid.crlNumber, true, fun _ _ _ => .ok []⟩] }
  ca := authority
  signerKey := request.publicKey

/-- In the busy context the extension of the plugin comes last, and that of the template is not there. -/
theorem ExtensionContext.sample_in_order :
    ∃ es, Sample.busyContext.resolve = .ok es ∧ es.map (·.oid) =
      [Oid.basicConstraints, Oid.keyUsage, Oid.subjectKeyIdentifier, Oid.authorityKeyIdentifier,
       Oid.subjectAltName, Oid.certificatePolicies, Oid.crlDistributionPoints, Oid.qcStatements,
       Oid.subjectDirectoryAttributes, Oid.crlNumber] := by
  have hissuers : ((Text.entries "; CN=c").mapM Sample.busyContext.crlIssuer).isOk = true := by
    decide +kernel
  obtain ⟨issuers, hissuers⟩ := exists_of_isOk hissuers
  have huris : (Text.entries " ; ").mapM asciiPlace = .ok [] := rfl
  -- the sources before and after that of the revocation lists evaluate
  have hbefore : ∀ source ∈ Sample.busyContext.sources.take 7, source.isOk = true := by decide +kernel
  have hafter : ∀ source ∈ Sample.busyContext.sources.drop 8, source.isOk = true := by decide +kernel
  have hsources : ∀ source ∈ Sample.busyContext.sources, ∃ g, source = .ok g := by
    intro source hsource
    rw [← List.take_append_drop 7 Sample.busyContext.sources, List.mem_append] at hsource
    obtain hsource | hsource := hsource
    · exact exists_of_isOk (hbefore source hsource)
    · obtain rfl | hsource := List.mem_cons.1 hsource
      · exact exists_crlDistributionPoints_iff.2 fun _ => ⟨⟨_, hissuers⟩, _, huris⟩
      · exact exists_of_isOk (hafter source hsource)
  obtain ⟨es, hes⟩ := (exists_resolve_iff (by decide +kernel)).2 hsources
  obtain ⟨-, ⟨builtIn, added, rfl, hbuiltIn, hadded⟩, -⟩ := resolve_in_order hes
  obtain ⟨e, rest, he, hrest, rfl⟩ := List.forall₂_cons_left_iff.1 hadded
  cases hrest
  have hincluded : (BuiltIn.all.filter fun b => Sample.busyContext.Includes b) =
      [.basicConstraints, .keyUsage, .subjectKeyIdentifier, .authorityKeyIdentifier, .subjectAltName,
       .certificatePolicies, .crlDistributionPoints, .qcStatements, .subjectDirectoryAttributes] := by
    decide +kernel
  refine ⟨_, hes, ?_⟩
  rw [List.map_append, hbuiltIn, hincluded, List.map_singleton, he.oid]
  rfl

end CertAuthority
