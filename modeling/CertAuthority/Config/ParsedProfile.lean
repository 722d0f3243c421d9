import CertAuthority.Config.Profile
import CertAuthority.Error
import CertAuthority.Oid.Known

/-!
# Profiles with parsed texts

The texts of a profile are parsed once, before the profile is used, and a profile with a malformed
text is refused then. What is kept is what issuing needs again; the other texts are only checked.
-/

namespace CertAuthority

/-- What the texts of a profile stand for. -/
structure ParsedProfile where
  extendedKeyUsage : List Oid := []
  policyIds : List Oid := []
  /-- The attribute types of the subject that are kept. -/
  subjectDnSubset : List Oid := []
  /-- The semantics of the statements of qualified certificates. -/
  qcSemanticsId : Option Oid := none
  qcRaNames : List AltName := []
  /-- The identifier of the statement with a text. -/
  qcCustomOid : Option Oid := none
deriving DecidableEq, Repr

namespace ParsedProfile

/-- Reads a dotted identifier for a purpose that is named if it fails. -/
def oid (purpose text : String) : Except Error Oid :=
  (Oid.parse (Text.trimmed text)).mapError fun e =>
    .invalidProfile (purpose ++ " " ++ Text.quoted text ++ ": " ++ e.message)

/-- The purposes of extended key usage by their names in configuration texts. -/
def keyPurposes : List (String × Oid) :=
  [("server_auth", Oid.serverAuth), ("client_auth", Oid.clientAuth),
   ("code_signing", Oid.codeSigning), ("email_protection", Oid.emailProtection),
   ("time_stamping", Oid.timeStamping), ("ocsp_signing", Oid.ocspSigning),
   ("ms_smartcard_logon", Oid.smartcardLogon), ("any", Oid.anyExtendedKeyUsage)]

/-- Reads an extended key usage, a name or a dotted identifier. -/
def keyPurpose (text : String) : Except Error Oid :=
  let name := Text.trimmed text
  match keyPurposes.lookup name with
  | some oid => .ok oid
  | none => oid "extended key usage" name

/-- Refuses a malformed part of a profile under a heading. -/
def underHeading {α : Type} (heading : String) (r : Except ParseError α) : Except Error α :=
  r.mapError fun e => .invalidProfile (heading ++ ": " ++ e.message)

/-- Refuses a text that is not the name of an issuer of revocation lists. -/
def checkCrlIssuer (text : String) : Except Error Unit := do
  let _ ← underHeading "CRL issuer" (DistinguishedName.parse text)

/-- Refuses a text that is not ASCII. -/
def checkAscii (text : String) : Except Error Unit :=
  if Text.isAscii text then .ok ()
  else .error (.invalidProfile ("non-ASCII value " ++ Text.quoted text))

/-- How many characters a user notice may have. -/
def maxNoticeLength : Nat := 200

/-- Refuses a currency that is not three characters of a PrintableString, if there is a limit and its
currency is given. -/
def checkCurrency (qc : QcSettings) : Except Error Unit :=
  let currency := Text.trimmed qc.etsiValueLimitCurrency
  if qc.useEtsiValueLimit && !currency.isEmpty &&
      (currency.utf8ByteSize != 3 || !Text.isPrintable currency) then
    .error (.invalidProfile
      ("QC value limit currency " ++ Text.quoted currency ++ " is not an ISO 4217 code"))
  else .ok ()

/-- Reads an identifier that may be left out. -/
def optionalOid (purpose text : String) : Except Error (Option Oid) :=
  let id := Text.trimmed text
  if id.isEmpty then .ok none else some <$> oid purpose id

end ParsedProfile

namespace Profile

open ParsedProfile

/-- Parses the texts of a profile. The first one that is malformed, in a fixed order, is
reported. -/
def parse (p : Profile) : Except Error ParsedProfile := do
  let extendedKeyUsage ← p.extendedKeyUsage.mapM keyPurpose
  let policyIds ← (Text.entries p.certificatePolicyId).mapM (oid "certificate policy")
  let subjectDnSubset ← p.subjectDnSubset.mapM fun name =>
    underHeading "subject DN subset" (AttributeType.oid? name)
  (Text.entries p.crlIssuer).forM checkCrlIssuer
  (Text.entries p.crlDistributionPointUri ++ Text.entries p.ocspServiceLocatorUri ++
    [p.policyCpsUrl, p.microsoftTemplate]).forM checkAscii
  if maxNoticeLength < p.policyUserNoticeText.length then
    throw (.invalidProfile "user notice text exceeds 200 characters")
  let qc := p.qcStatements
  let qcSemanticsId ← optionalOid "QC semantics identifier" qc.semanticsId
  let qcRaNames ← underHeading "QC RA name" (AltName.parse qc.raName)
  let qcCustomOid ←
    if qc.useCustomString then optionalOid "QC custom statement" qc.customStringOid else pure none
  checkCurrency qc
  return { extendedKeyUsage, policyIds, subjectDnSubset, qcSemanticsId, qcRaNames, qcCustomOid }

/-- Reads a profile from a configuration text, over the profile of certificates of persons. -/
def ofToml (text : String) : Except Error Profile := do
  let some entries := Toml.parse text | throw (.configuration "not a TOML document")
  let some profile := Toml.readSettings entries settings endUser
    | throw (.configuration "not a certificate profile")
  let _ ← profile.parse
  return profile

end Profile

end CertAuthority
