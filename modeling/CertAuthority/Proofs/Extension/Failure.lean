import CertAuthority.Proofs.Extension.Loaded
import CertAuthority.Proofs.Extension.Order

/-!
# Why a certificate has no extensions

The extensions are computed step by step, and the first step that cannot be taken ends it
(`ExtensionContext.resolve_eq_error_iff`). With a profile that parses and plugins of fixed values only few texts
can be to blame (`ExtensionContext.Fault`): where it is one of the request, the request is blamed, and where it is
one of the profile or of the authority, the configuration is, unless it is a place that is not ASCII. For such a
place nobody is blamed (`ExtensionContext.resolve_blames`).
-/

namespace CertAuthority

/-- A step on the way to the extensions: one that is built in, or one of a plugin. -/
inductive ExtensionStep where
  | builtIn (b : BuiltIn)
  | plugin (p : Plugin)

namespace ExtensionStep

/-- What a step gives. -/
def source (c : ExtensionContext) : ExtensionStep → Except Error (Option Extension)
  | builtIn b => b.source c
  | plugin p => c.pluginExtension p

/-- The identifier of the extensions that a step gives. -/
def oid : ExtensionStep → Oid
  | builtIn b => b.oid
  | plugin p => p.oid

/-- Whether a step reads a text of the request: the alternative names or the directory attributes. -/
def ReadsRequest : ExtensionStep → Prop
  | builtIn .subjectAltName => True
  | builtIn .subjectDirectoryAttributes => True
  | _ => False

/-- What a step gives has the identifier of the step. -/
lemma gives_source (c : ExtensionContext) (step : ExtensionStep) :
    ExtensionContext.Gives step.oid (step.source c) := by
  cases step with
  | builtIn b => exact c.gives_source b
  | plugin p => exact c.gives_pluginExtension p

end ExtensionStep

namespace ExtensionContext

variable {c : ExtensionContext} {step : ExtensionStep} {e : Error}

/-! ### The first step that cannot be taken -/

/-- The steps, in their order. -/
def steps (c : ExtensionContext) : List ExtensionStep :=
  BuiltIn.all.map .builtIn ++ c.resolved.plugins.map .plugin

/-- The sources are what the steps give, in their order. -/
lemma sources_eq (c : ExtensionContext) : c.sources = c.steps.map (ExtensionStep.source c) := by
  rw [steps, List.map_append, List.map_map, List.map_map]
  rfl

/-- A step cannot be taken after some extensions: it fails, or it gives an extension whose identifier one of them
has. -/
def Stops (es : List Extension) (source : Except Error (Option Extension)) (e : Error) : Prop :=
  source = .error e ∨ ∃ x, source = .ok (some x) ∧ x.oid ∈ es.map (·.oid) ∧
    e = .invalidProfile ("extension " ++ x.oid.text ++ " included more than once")

/-- A step is the first that cannot be taken. -/
def StopsAt (c : ExtensionContext) (step : ExtensionStep) (e : Error) : Prop :=
  ∃ (before after : List ExtensionStep) (given : List (Option Extension)), c.steps = before ++ step :: after ∧
    before.map (ExtensionStep.source c) = given.map .ok ∧ (given.reduceOption.map (·.oid)).Nodup ∧
    Stops given.reduceOption (step.source c) e

/-- Collecting fails exactly if there is a first source that cannot be used. -/
lemma collect_eq_error_iff {es : List Extension} {sources : List (Except Error (Option Extension))}
    (distinct : (es.map (·.oid)).Nodup) : collect es sources = .error e ↔
      ∃ (given : List (Option Extension)) (source : Except Error (Option Extension))
        (after : List (Except Error (Option Extension))), sources = given.map .ok ++ source :: after ∧
        ((es ++ given.reduceOption).map (·.oid)).Nodup ∧ Stops (es ++ given.reduceOption) source e := by
  constructor
  · intro h
    induction sources generalizing es with
    | nil => cases h
    | cons source rest ih =>
      cases source with
      | error failure =>
        cases h
        exact ⟨[], _, rest, rfl, by simpa using distinct, .inl rfl⟩
      | ok g =>
        cases g with
        | none =>
          obtain ⟨given, source, after, rfl, hdistinct, hstops⟩ := ih distinct h
          refine ⟨none :: given, source, after, rfl, ?_⟩
          rw [List.reduceOption_cons_of_none]
          exact ⟨hdistinct, hstops⟩
        | some x =>
          rw [collect, ok_bind] at h
          -- Either the new extension is refused, or it is taken and a later source stops.
          obtain hrefused | ⟨out, hout, h⟩ := bind_eq_error_iff.1 h
          · obtain ⟨hmem, rfl⟩ := Extension.append_eq_error_iff.1 hrefused
            refine ⟨[], _, rest, rfl, by simpa using distinct, .inr ⟨x, rfl, ?_, rfl⟩⟩
            simpa using hmem
          · obtain ⟨hnew, rfl⟩ := Extension.append_eq_ok_iff.1 hout
            have hdistinct : ((es ++ [x]).map (·.oid)).Nodup := by
              rw [List.map_append, List.map_singleton, ← List.concat_eq_append, List.nodup_concat]
              exact ⟨hnew, distinct⟩
            obtain ⟨given, source, after, rfl, hdistinct, hstops⟩ := ih hdistinct h
            refine ⟨some x :: given, source, after, rfl, ?_⟩
            rw [List.reduceOption_cons_of_some, List.append_cons]
            exact ⟨hdistinct, hstops⟩
  · rintro ⟨given, source, after, rfl, hdistinct, hstops⟩
    -- What comes before is collected as a whole, and the source that stops meets it.
    have hgiven : collect es (given.map .ok) = .ok (es ++ given.reduceOption) :=
      (collect_eq_ok_iff distinct).2 ⟨given, rfl, rfl, hdistinct⟩
    rw [collect_append, hgiven, ok_bind]
    obtain rfl | ⟨x, rfl, hmem, rfl⟩ := hstops
    · rfl
    · rw [collect, ok_bind]
      exact bind_eq_error_iff.2 (.inl (Extension.append_eq_error_iff.2 ⟨hmem, rfl⟩))

/-- Resolving fails exactly if there is a first step that cannot be taken, and with its error. -/
lemma resolve_eq_error_iff : c.resolve = .error e ↔ ∃ step, c.StopsAt step e := by
  have hnil : (([] : List Extension).map (·.oid)).Nodup := List.nodup_nil
  rw [resolve, collect_eq_error_iff hnil, sources_eq]
  constructor
  · rintro ⟨given, source, after, hsources, hdistinct, hstops⟩
    obtain ⟨before, rest, hsteps, hbefore, hrest⟩ := List.map_eq_append_iff.1 hsources
    obtain ⟨step, after, rfl, rfl, -⟩ := List.map_eq_cons_iff.1 hrest
    exact ⟨step, before, after, given, hsteps, hbefore, hdistinct, hstops⟩
  · rintro ⟨step, before, after, given, hsteps, hbefore, hdistinct, hstops⟩
    refine ⟨given, step.source c, after.map (ExtensionStep.source c), ?_, hdistinct, hstops⟩
    rw [hsteps, List.map_append, List.map_cons, hbefore]

/-- Only the identifier of a plugin can be there already: those that are built in differ. -/
lemma StopsAt.fails_or_repeats (h : c.StopsAt step e) : step.source c = .error e ∨
    ∃ p, step = .plugin p ∧ e = .invalidProfile ("extension " ++ p.oid.text ++ " included more than once") := by
  obtain ⟨before, after, given, hsteps, hbefore, -, hfails | ⟨x, hx, hmem, rfl⟩⟩ := h
  · exact .inl hfails
  have hoid : x.oid = step.oid := step.gives_source c x hx
  have hgives : List.Forall₂ Gives (before.map ExtensionStep.oid) (given.map .ok) := by
    rw [← hbefore, List.forall₂_map_left_iff, List.forall₂_map_right_iff, List.forall₂_same]
    exact fun earlier _ => earlier.gives_source c
  have hearlier : step.oid ∈ before.map ExtensionStep.oid := hoid ▸ (sublist_of_gives hgives).subset hmem
  rw [hoid]
  cases step with
  | plugin p => exact .inr ⟨p, rfl, rfl⟩
  | builtIn b =>
    -- A step that is built in stands before all plugins, behind built-in steps with other identifiers.
    exfalso
    obtain ⟨rest, hall, hrest⟩ | ⟨rest, -, hplugins⟩ := List.append_eq_append_iff.1 hsteps.symm
    · cases rest with
      | nil =>
        obtain ⟨p, -, hp⟩ := List.mem_map.1 (hrest ▸ List.mem_cons_self)
        cases hp
      | cons first rest =>
        obtain ⟨rfl, -⟩ := List.cons.inj hrest
        have hdistinct : (BuiltIn.all.map BuiltIn.oid).Nodup := by decide +kernel
        have hmap : BuiltIn.all.map BuiltIn.oid = (BuiltIn.all.map ExtensionStep.builtIn).map ExtensionStep.oid := by
          rw [List.map_map]
          rfl
        rw [hmap, hall, List.map_append, List.map_cons] at hdistinct
        exact (List.nodup_middle.1 hdistinct).notMem (List.mem_append_left _ hearlier)
    · have hb : ExtensionStep.builtIn b ∈ c.resolved.plugins.map .plugin := by
        rw [hplugins]
        exact List.mem_append_right _ List.mem_cons_self
      obtain ⟨p, -, hp⟩ := List.mem_map.1 hb
      cases hp

/-! ### What a step may fail with -/

/-- What can be wrong at a step, and the error that reports it. -/
inductive Fault (c : ExtensionContext) : ExtensionStep → Error → Prop where
  /-- One of the requested alternative names has no form. -/
  | altNames {failure : ParseError} (used : c.Includes .subjectAltName)
      (fails : AltName.toGeneralNames c.ca.dnEncoding c.altNames = .error failure) :
      Fault c (.builtIn .subjectAltName) (.invalidSubject ("subject alternative name: " ++ failure.message))
  /-- The requested directory attributes cannot be read. -/
  | attributes {failure : ParseError} (used : c.profile.useSubjectDirectoryAttributes = true)
      (fails : DirectoryAttribute.parse (c.request.directoryAttributes.getD "") = .error failure) :
      Fault c (.builtIn .subjectDirectoryAttributes)
        (.invalidSubject ("subject directory attributes: " ++ failure.message))
  /-- An issuer of revocation lists is no name or has no form, and it is the first one. -/
  | crlIssuer {before after : List String} {text : String} {failure : ParseError}
      (used : c.profile.useCrlDistributionPoint = true)
      (split : Text.entries c.selectedCrlPlaces.2 = before ++ text :: after)
      (first : ∀ other ∈ before, ∃ name, c.IsIssuer other name)
      (fails : (DistinguishedName.parse text >>= fun dn => dn.toName c.ca.dnEncoding) = .error failure) :
      Fault c (.builtIn .crlDistributionPoints)
        (.invalidProfile ("CRL issuer " ++ Text.quoted text ++ ": " ++ failure.message))
  /-- A place of revocation lists is not ASCII, while the issuers are in order. -/
  | crlPlace {text : String} (used : c.profile.useCrlDistributionPoint = true)
      (issuers : ∀ other ∈ Text.entries c.selectedCrlPlaces.2, ∃ name, c.IsIssuer other name)
      (mem : text ∈ Text.entries c.selectedCrlPlaces.1) (fails : Text.isAscii text = false) :
      Fault c (.builtIn .crlDistributionPoints) .der
  /-- The place where the status can be asked for is not ASCII. -/
  | statusPlace (used : c.Includes .authorityInfoAccess)
      (fails : Text.isAscii (Text.trimmed c.selectedStatusPlace) = false) :
      Fault c (.builtIn .authorityInfoAccess) .der
  /-- One of the names of those who register names has no form. -/
  | raNames {failure : ParseError} (used : c.profile.useQcStatements = true)
      (fails : AltName.toGeneralNames c.ca.dnEncoding c.resolved.parsed.qcRaNames = .error failure) :
      Fault c (.builtIn .qcStatements) (.invalidProfile ("QC RA name: " ++ failure.message))
  /-- A plugin has an identifier that an earlier step has used. -/
  | repeated (p : Plugin) :
      Fault c (.plugin p) (.invalidProfile ("extension " ++ p.oid.text ++ " included more than once"))

/-- A place fails exactly if it is not ASCII. -/
lemma asciiPlace_eq_error_iff {text : String} :
    asciiPlace text = .error e ↔ Text.isAscii text = false ∧ e = .der := by
  unfold asciiPlace
  split
  · rename_i h
    simp [h]
  · rename_i h
    simp [h, eq_comm]

/-- The issuers are encoded before the places are looked at. -/
lemma Fault.of_crlDistributionPoints (h : c.crlDistributionPoints = .error e) :
    c.Fault (.builtIn .crlDistributionPoints) e := by
  unfold crlDistributionPoints at h
  split at h
  · rename_i huse
    rw [crlPlaces_eq] at h
    obtain hissuers | ⟨issuers, hissuers, h⟩ := bind_eq_error_iff.1 h
    · obtain ⟨before, text, after, hsplit, hbefore, hfails⟩ := mapM_eq_error_iff.1 hissuers
      obtain ⟨failure, hfailure, rfl⟩ := ParsedProfile.underHeading_eq_error_iff.1 hfails
      refine .crlIssuer huse hsplit (fun other hother => ?_) hfailure
      obtain ⟨name, hname⟩ := hbefore other hother
      exact ⟨name, (bind_eq_ok_iff.1 (mapError_eq_ok_iff.1 hname))⟩
    · obtain hplaces | ⟨uris, -, h⟩ := bind_eq_error_iff.1 h
      · obtain ⟨before, text, after, hsplit, -, hfails⟩ := mapM_eq_error_iff.1 hplaces
        obtain ⟨hascii, rfl⟩ := asciiPlace_eq_error_iff.1 hfails
        refine .crlPlace huse (fun other hother => ?_) (hsplit ▸ List.mem_append_right _ List.mem_cons_self) hascii
        obtain ⟨name, hname⟩ := exists_mapM_eq_ok_iff.1 ⟨issuers, hissuers⟩ other hother
        exact ⟨name, (bind_eq_ok_iff.1 (mapError_eq_ok_iff.1 hname))⟩
      · cases (whenever_eq_error_iff.1 h).2
  · cases h

/-- The attributes are the only thing that a step for them reads. -/
lemma Fault.of_subjectDirectoryAttributes (h : c.subjectDirectoryAttributes = .error e) :
    c.Fault (.builtIn .subjectDirectoryAttributes) e := by
  unfold subjectDirectoryAttributes at h
  split at h
  · rename_i huse
    obtain hparse | ⟨attributes, -, h⟩ := bind_eq_error_iff.1 h
    · obtain ⟨failure, hfailure, rfl⟩ := mapError_eq_error_iff.1 hparse
      exact .attributes huse hfailure
    · cases (whenever_eq_error_iff.1 h).2
  · cases h

/-- The currency was checked when the profile was parsed, so only the names of those who register names may fail. -/
lemma Fault.of_qcStatements (hparsed : c.profile.IsParsed c.resolved.parsed) (h : c.qcStatements = .error e) :
    c.Fault (.builtIn .qcStatements) e := by
  obtain ⟨huse, h⟩ := whenever_eq_error_iff.1 h
  rw [QcStatement.statements_eq hparsed.currency, bind_pure_eq_error_iff, bind_pure_eq_error_iff] at h
  obtain ⟨failure, hfailure, rfl⟩ := ParsedProfile.underHeading_eq_error_iff.1 h
  exact .raNames huse hfailure

/-- With a profile that parses and plugins of fixed values, a step that fails does so for one of the reasons. -/
lemma Fault.of_source (hparsed : c.profile.IsParsed c.resolved.parsed)
    (hfixed : ∀ p ∈ c.resolved.plugins, p.IsFixed)
    (hstep : step ∈ c.steps) (h : step.source c = .error e) : c.Fault step e := by
  cases step with
  | plugin p =>
    have hp : p ∈ c.resolved.plugins := by simpa [steps] using hstep
    obtain ⟨octets, hvalue⟩ := (hfixed p hp).exists_value
    have hnever := bind_pure_eq_error_iff.1 h
    rw [hvalue] at hnever
    cases hnever
  | builtIn b =>
    cases b with
    | subjectAltName =>
      obtain ⟨hcondition, h⟩ := whenever_eq_error_iff.1 h
      obtain ⟨failure, hfailure, rfl⟩ := mapError_eq_error_iff.1 (bind_pure_eq_error_iff.1 h)
      exact .altNames (by simpa [Includes] using hcondition) hfailure
    | crlDistributionPoints => exact .of_crlDistributionPoints h
    | authorityInfoAccess =>
      obtain ⟨hcondition, h⟩ := whenever_eq_error_iff.1 h
      obtain ⟨hascii, rfl⟩ := asciiPlace_eq_error_iff.1 (bind_pure_eq_error_iff.1 h)
      rw [statusPlace_eq] at hcondition hascii
      rw [Bool.and_eq_true, Bool.not_eq_true', Text.isEmpty_trimmed_iff] at hcondition
      exact .statusPlace hcondition hascii
    -- The places of the policies and of the template were checked when the profile was parsed.
    | certificatePolicies =>
      obtain ⟨-, h⟩ := whenever_eq_error_iff.1 h
      have hplace := bind_pure_eq_error_iff.1 (bind_pure_eq_error_iff.1 h)
      rw [asciiPlace_eq_error_iff, Text.isAscii_trimmed hparsed.cpsUrl] at hplace
      cases hplace.1
    | templateName =>
      obtain ⟨-, h⟩ := whenever_eq_error_iff.1 h
      obtain ⟨hascii, -⟩ := asciiPlace_eq_error_iff.1 (bind_pure_eq_error_iff.1 h)
      rw [Text.isAscii_trimmed hparsed.template] at hascii
      cases hascii
    | qcStatements => exact .of_qcStatements hparsed h
    | subjectDirectoryAttributes => exact .of_subjectDirectoryAttributes h
    -- The rest only write what they are given and do not fail.
    | basicConstraints => cases (whenever_eq_error_iff.1 h).2
    | keyUsage => cases (whenever_eq_error_iff.1 h).2
    | extendedKeyUsage => cases (whenever_eq_error_iff.1 h).2
    | subjectKeyIdentifier => cases (whenever_eq_error_iff.1 h).2
    | authorityKeyIdentifier => cases (whenever_eq_error_iff.1 h).2

/-- A step uses a place that is not ASCII. -/
def UsesForeignPlace (c : ExtensionContext) : ExtensionStep → Prop
  | .builtIn .crlDistributionPoints => ∃ text ∈ Text.entries c.selectedCrlPlaces.1, Text.isAscii text = false
  | .builtIn .authorityInfoAccess => Text.isAscii (Text.trimmed c.selectedStatusPlace) = false
  | _ => False

/-- A fault of the request blames the request, and any other the configuration, unless it is a place that is not
ASCII. -/
lemma Fault.blames (h : c.Fault step e) :
    (step.ReadsRequest → ∃ details, e = .invalidSubject details) ∧
      (¬ step.ReadsRequest → (∃ details, e = .invalidProfile details) ∨ e = .der ∧ c.UsesForeignPlace step) := by
  cases h with
  | altNames => exact ⟨fun _ => ⟨_, rfl⟩, fun h => absurd trivial h⟩
  | attributes => exact ⟨fun _ => ⟨_, rfl⟩, fun h => absurd trivial h⟩
  | crlIssuer => exact ⟨nofun, fun _ => .inl ⟨_, rfl⟩⟩
  | crlPlace _ _ mem fails => exact ⟨nofun, fun _ => .inr ⟨rfl, _, mem, fails⟩⟩
  | statusPlace _ fails => exact ⟨nofun, fun _ => .inr ⟨rfl, fails⟩⟩
  | raNames => exact ⟨nofun, fun _ => .inl ⟨_, rfl⟩⟩
  | repeated => exact ⟨nofun, fun _ => .inl ⟨_, rfl⟩⟩

/-- Who is to blame if a certificate has no extensions, with a profile that parses, plugins of fixed values and any
authority, checked or not. The extensions cannot be computed exactly if there is a first step that cannot be taken,
and its error is the one that is reported. The step has one of the listed faults. If it reads a text of the request,
the request is blamed; otherwise the configuration is, except for a place that is not ASCII, for which the error says
only that a value has no form. -/
theorem resolve_blames (hparse : c.profile.parse = .ok c.resolved.parsed)
    (hfixed : ∀ p ∈ c.resolved.plugins, p.IsFixed) :
    (c.resolve = .error e ↔ ∃ step, c.StopsAt step e) ∧
    ∀ step, c.StopsAt step e → c.Fault step e ∧
      (step.ReadsRequest → ∃ details, e = .invalidSubject details) ∧
      (¬ step.ReadsRequest → (∃ details, e = .invalidProfile details) ∨ e = .der ∧ c.UsesForeignPlace step) := by
  refine ⟨resolve_eq_error_iff, fun step hstops => ?_⟩
  have hfault : c.Fault step e := by
    obtain hfails | ⟨p, rfl, rfl⟩ := hstops.fails_or_repeats
    · have hmem : step ∈ c.steps := by
        obtain ⟨before, after, given, hsteps, -⟩ := hstops
        exact hsteps ▸ List.mem_append_right _ List.mem_cons_self
      exact .of_source (Profile.isParsed_of_parse hparse) hfixed hmem hfails
    · exact .repeated p
  exact ⟨hfault, hfault.blames⟩

end ExtensionContext

/-- A context without plugins under a profile of which nothing has to be kept. -/
def Sample.plainContext (request : Request) (profile : Profile) (ca : Authority) : ExtensionContext where
  request := request
  altNames := []
  resolved := { profile, parsed := {}, plugins := [] }
  ca := ca
  signerKey := request.publicKey

/-- A profile that asks for directory attributes and for the places of revocation lists of the authority. -/
def Sample.askingProfile : Profile where
  extendedKeyUsage := []
  useCrlDistributionPoint := true
  useDefaultCrlDistributionPoint := true
  useSubjectDirectoryAttributes := true

/-- The request asks for a gender that there is not. -/
def Sample.genderContext : ExtensionContext :=
  plainContext { request with directoryAttributes := some "gender=x" } askingProfile authority

/-- The issuer of the revocation lists has no name. -/
def Sample.namelessContext : ExtensionContext :=
  plainContext request askingProfile { authority with defaultCrlIssuer := "x" }

/-- The place of the revocation lists is not ASCII. -/
def Sample.foreignContext : ExtensionContext :=
  plainContext request askingProfile { authority with defaultCrlDistributionPoint := "http://ä" }

namespace ExtensionContext

/-- A gender that there is not is the fault of the request, and an issuer without a name that of the authority. -/
theorem sample_blames :
    (∃ step details, Sample.genderContext.StopsAt step (.invalidSubject details) ∧ step.ReadsRequest) ∧
    ∃ step details, Sample.namelessContext.StopsAt step (.invalidProfile details) ∧ ¬ step.ReadsRequest := by
  have hparse : Sample.askingProfile.parse = .ok {} := by decide +kernel
  constructor
  · have hresolve : Sample.genderContext.resolve =
        .error (.invalidSubject "subject directory attributes: invalid gender value \"x\"") := by decide +kernel
    obtain ⟨hstops, hblames⟩ := @resolve_blames Sample.genderContext _ hparse (List.forall_mem_nil _)
    obtain ⟨step, hstep⟩ := hstops.1 hresolve
    obtain ⟨-, -, hother⟩ := hblames step hstep
    refine ⟨step, _, hstep, ?_⟩
    by_contra hno
    obtain ⟨_, h⟩ | ⟨h, -⟩ := hother hno
    · cases h
    · cases h
  · have hresolve : Sample.namelessContext.resolve =
        .error (.invalidProfile "CRL issuer \"x\": component \"x\" is missing '='") := by decide +kernel
    obtain ⟨hstops, hblames⟩ := @resolve_blames Sample.namelessContext _ hparse (List.forall_mem_nil _)
    obtain ⟨step, hstep⟩ := hstops.1 hresolve
    obtain ⟨-, hrequest, -⟩ := hblames step hstep
    refine ⟨step, _, hstep, ?_⟩
    intro hreads
    obtain ⟨_, h⟩ := hrequest hreads
    cases h

/-- Places that are not ASCII, and an error that blames nobody: one is the place of the revocation lists of an
authority that was not checked, the other is a place for the status that has passed all checks as two. -/
theorem exists_place_without_blame :
    (Sample.askingProfile.parse = .ok Sample.foreignContext.resolved.parsed ∧
      Sample.foreignContext.resolved.plugins = [] ∧ Sample.foreignContext.resolve = .error .der) ∧
    ∃ c : ExtensionContext, Sample.loadedContext
        "use_ocsp_service_locator = true\nocsp_service_locator_uri = \"http://a \u00a0;http://b\"" = .ok c ∧
      c.ca.validate = .ok () ∧ c.profile.parse = .ok c.resolved.parsed ∧ c.resolved.plugins = [] ∧
      c.resolve = .error .der := by
  constructor
  · exact ⟨by decide +kernel, rfl, by decide +kernel⟩
  · have hload : (Sample.loadedContext
        "use_ocsp_service_locator = true\nocsp_service_locator_uri = \"http://a \u00a0;http://b\"" >>=
          fun c => if c.resolved.plugins.isEmpty ∧ c.resolve = .error .der then .ok c else .error .der).isOk =
        true := by decide +kernel
    obtain ⟨out, hout⟩ := exists_of_isOk hload
    obtain ⟨c, hc, hout⟩ := bind_eq_ok_iff.1 hout
    have hloaded := Sample.isLoaded_of_loadedContext hc
    split at hout
    · rename_i hresolve
      exact ⟨c, hc, hloaded.authority, (ResolvedProfile.of_resolve hloaded.profile).2.1,
        List.isEmpty_iff.1 hresolve.1, hresolve.2⟩
    · cases hout

end ExtensionContext

end CertAuthority
