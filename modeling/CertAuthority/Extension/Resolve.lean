import CertAuthority.Extension.Access
import CertAuthority.Extension.Constraints
import CertAuthority.Extension.DirectoryAttribute
import CertAuthority.Extension.KeyIdentifier
import CertAuthority.Extension.Policies
import CertAuthority.Extension.QcStatement
import CertAuthority.Extension.Registry

/-!
# The extensions of a certificate

A profile decides which extensions a certificate has; the request, the authority and the signing key
fill them. Each built-in extension has a function here that gives it or, where it is off or empty,
nothing. They stand in a fixed order, and the plugins of the profile follow.
-/

namespace CertAuthority

open Der

/-- What the extensions of a certificate depend on. -/
structure ExtensionContext where
  request : Request
  /-- The alternative names that the profile keeps. -/
  altNames : List AltName
  resolved : ResolvedProfile
  ca : Authority
  /-- The public half of the key that signs. -/
  signerKey : PublicKeyInfo

namespace ExtensionContext

/-- The profile under which the certificate is issued. -/
abbrev profile (c : ExtensionContext) : Profile :=
  c.resolved.profile

/-- Nothing, or the result of a computation where a condition holds. -/
def whenever (condition : Bool) (e : Except Error Extension) : Except Error (Option Extension) :=
  if condition then some <$> e else .ok none

/-- Whether the subject is an authority. -/
def basicConstraints (c : ExtensionContext) : Except Error (Option Extension) :=
  let isCa := c.profile.kind.isCa
  let pathLength :=
    if isCa && c.profile.usePathLengthConstraint then some c.profile.pathLengthConstraint else none
  whenever c.profile.useBasicConstraints <| .ok <|
    .ofElement Oid.basicConstraints c.profile.basicConstraintsCritical
      (BasicConstraints.tlv ⟨isCa, pathLength⟩)

/-- The uses of the key: those of the request if the profile lets it choose, else those of the
profile. -/
def effectiveKeyUsage (c : ExtensionContext) : KeyUsage :=
  match c.request.keyUsage with
  | some requested =>
    if c.profile.allowKeyUsageOverride then requested else c.profile.keyUsage
  | none => c.profile.keyUsage

/-- What the key may be used for. -/
def keyUsage (c : ExtensionContext) : Except Error (Option Extension) :=
  whenever (c.profile.useKeyUsage && !c.effectiveKeyUsage.isEmpty) <| .ok <|
    .ofElement Oid.keyUsage c.profile.keyUsageCritical c.effectiveKeyUsage.tlv

/-- What else the key may be used for. -/
def extendedKeyUsage (c : ExtensionContext) : Except Error (Option Extension) :=
  let purposes := c.resolved.parsed.extendedKeyUsage
  whenever (c.profile.useExtendedKeyUsage && !purposes.isEmpty) <| .ok <|
    .ofElement Oid.extendedKeyUsage c.profile.extendedKeyUsageCritical
      (ExtendedKeyUsage.tlv purposes)

/-- The name of the subject's key. -/
def subjectKeyIdentifier (c : ExtensionContext) : Except Error (Option Extension) :=
  whenever c.profile.useSubjectKeyIdentifier <| .ok <|
    .ofElement Oid.subjectKeyIdentifier c.profile.subjectKeyIdentifierCritical
      (KeyIdentifier.subjectTlv c.request.publicKey.keyIdentifier)

/-- The name of the authority's key: the one in its certificate, but for roots, whose key may be a new
one, and where there is none, the name of the key that signs. -/
def authorityKeyId (c : ExtensionContext) : Octets :=
  let existing :=
    if c.profile.kind = .rootCa then none else c.ca.certificate.bind fun cert => cert.subjectKeyId
  existing.getD c.signerKey.keyIdentifier

/-- The name of the authority's key, so that the certificate above can be found by it. -/
def authorityKeyIdentifier (c : ExtensionContext) : Except Error (Option Extension) :=
  whenever c.profile.useAuthorityKeyIdentifier <| .ok <|
    KeyIdentifier.authority c.profile.authorityKeyIdentifierCritical c.authorityKeyId

/-- Refuses a malformed part of a request under a heading. -/
def underHeading {α : Type} (heading : String) (r : Except ParseError α) : Except Error α :=
  r.mapError fun e => .invalidSubject (heading ++ ": " ++ e.message)

/-- Other names of the subject. -/
def subjectAltName (c : ExtensionContext) : Except Error (Option Extension) :=
  whenever (c.profile.useSubjectAltName && !c.altNames.isEmpty) do
    let names ← underHeading "subject alternative name"
      (AltName.toGeneralNames c.ca.dnEncoding c.altNames)
    return .ofElement Oid.subjectAltName c.profile.subjectAltNameCritical
      (GeneralName.listTlv names)

/-- A place must be ASCII to have a form. -/
def asciiPlace (uri : String) : Except Error String :=
  if Text.isAscii uri then .ok uri else .error .der

/-- What is said about the policies: a notice and the place of the practice statement, each if there is a
text for it. The empty text passes as a place and is left out. -/
def policyQualifiers (c : ExtensionContext) : Except Error (List PolicyQualifier) := do
  let notice := Text.trimmed c.profile.policyUserNoticeText
  let uri ← asciiPlace (Text.trimmed c.profile.policyCpsUrl)
  return (if notice.isEmpty then [] else [.userNotice c.ca.useUtf8PolicyText notice]) ++
    if uri.isEmpty then [] else [.practiceStatement uri]

/-- The policies under which the certificate is issued. -/
def certificatePolicies (c : ExtensionContext) : Except Error (Option Extension) :=
  let ids := c.resolved.parsed.policyIds
  whenever (c.profile.useCertificatePolicies && !ids.isEmpty) do
    return .ofElement Oid.certificatePolicies c.profile.certificatePoliciesCritical
      (PolicyInformation.listTlv (PolicyInformation.ofIds ids (← c.policyQualifiers)))

/-- The name that the text of an issuer of revocation lists stands for. -/
def crlIssuer (c : ExtensionContext) (text : String) : Except Error Name :=
  ParsedProfile.underHeading ("CRL issuer " ++ Text.quoted text) do
    (← DistinguishedName.parse text).toName c.ca.dnEncoding

/-- The texts of the places and issuers of revocation lists: the profile's own, or those of the
authority if the profile leaves it to that. -/
def crlPlaces (c : ExtensionContext) : String × String :=
  if c.profile.useDefaultCrlDistributionPoint then
    (c.ca.defaultCrlDistributionPoint, c.ca.defaultCrlIssuer)
  else (c.profile.crlDistributionPointUri, c.profile.crlIssuer)

/-- Where revocation lists can be found, and who issues them. The issuers are looked at first. -/
def crlDistributionPoints (c : ExtensionContext) : Except Error (Option Extension) :=
  if c.profile.useCrlDistributionPoint then do
    let issuers ← (Text.entries c.crlPlaces.2).mapM c.crlIssuer
    let uris ← (Text.entries c.crlPlaces.1).mapM asciiPlace
    let points := DistributionPoint.paired uris issuers
    whenever (!points.isEmpty) <| .ok <|
      .ofElement Oid.crlDistributionPoints c.profile.crlDistributionPointCritical
        (DistributionPoint.listTlv points)
  else .ok none

/-- The place where the status of the certificate can be asked for. -/
def statusPlace (c : ExtensionContext) : String :=
  Text.trimmed (if c.profile.useDefaultOcspServiceLocator then c.ca.defaultOcspLocator
    else c.profile.ocspServiceLocatorUri)

/-- Where the status of the certificate can be asked for. -/
def authorityInfoAccess (c : ExtensionContext) : Except Error (Option Extension) :=
  whenever (c.profile.useOcspServiceLocator && !c.statusPlace.isEmpty) do
    return .ofElement Oid.authorityInfoAccess false (StatusAccess.tlv (← asciiPlace c.statusPlace))

/-- The name of the template that the certificate was made from. -/
def templateName (c : ExtensionContext) : Except Error (Option Extension) :=
  let name := Text.trimmed c.profile.microsoftTemplate
  whenever (c.profile.useMicrosoftTemplate && !name.isEmpty) do
    return .ofElement Oid.certificateTemplateName false
      (.ofText Tag.ia5String (← asciiPlace name))

/-- Under which rules the certificate is qualified. -/
def qcStatements (c : ExtensionContext) : Except Error (Option Extension) :=
  whenever c.profile.useQcStatements do
    let statements ←
      QcStatement.statements c.profile.qcStatements c.resolved.parsed c.ca.dnEncoding
    return .ofElement Oid.qcStatements c.profile.qcStatementsCritical
      (QcStatement.listTlv statements)

/-- What the request says about a person. It is read also where nothing comes of it. -/
def subjectDirectoryAttributes (c : ExtensionContext) : Except Error (Option Extension) :=
  if c.profile.useSubjectDirectoryAttributes then do
    let attributes ← underHeading "subject directory attributes"
      (DirectoryAttribute.parse (c.request.directoryAttributes.getD ""))
    whenever (!attributes.isEmpty) <| .ok <|
      .ofElement Oid.subjectDirectoryAttributes false (DirectoryAttribute.listTlv attributes)
  else .ok none

/-- The extension of a plugin, which is there always. -/
def pluginExtension (c : ExtensionContext) (plugin : Plugin) : Except Error (Option Extension) := do
  return some ⟨plugin.oid, plugin.critical, ← plugin.value c.request c.ca c.profile⟩

/-- What gives the extensions, in their order. -/
def sources (c : ExtensionContext) : List (Except Error (Option Extension)) :=
  [c.basicConstraints, c.keyUsage, c.extendedKeyUsage, c.subjectKeyIdentifier,
   c.authorityKeyIdentifier, c.subjectAltName, c.certificatePolicies, c.crlDistributionPoints,
   c.authorityInfoAccess, c.templateName, c.qcStatements, c.subjectDirectoryAttributes] ++
    c.resolved.plugins.map c.pluginExtension

/-- Adds what sources give to extensions, in order. The first source that fails or gives an extension
that is there already ends it. -/
def collect : List Extension → List (Except Error (Option Extension)) →
    Except Error (List Extension)
  | es, [] => .ok es
  | es, source :: rest => do
    match ← source with
    | none => collect es rest
    | some e => collect (← Extension.append es e) rest

/-- The extensions of a certificate, in order. -/
def resolve (c : ExtensionContext) : Except Error (List Extension) :=
  collect [] c.sources

end ExtensionContext

end CertAuthority
