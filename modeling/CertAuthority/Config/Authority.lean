import CertAuthority.Certificate.Issuer
import CertAuthority.Certificate.Serial
import CertAuthority.Config.ParsedProfile

/-!
# Configuration of an authority

What is common to everything that an authority signs: its name, how it writes names, what its
revocation lists contain and, once it has one, its own certificate.
-/

namespace CertAuthority

open Toml

/-- The configuration of an authority. -/
structure Authority where
  name : String := ""
  subjectDn : String := ""
  /-- The string type of the values in names. -/
  dnEncoding : NameEncoding := .utf8
  /-- Whether revocation lists name the authority's key. -/
  useAuthorityKeyIdentifier : Bool := true
  authorityKeyIdentifierCritical : Bool := false
  useCrlNumber : Bool := true
  crlNumberCritical : Bool := false
  /-- Where revocation lists are, separated by semicolons, for profiles that do not say. -/
  defaultCrlDistributionPoint : String := ""
  /-- Who issues revocation lists, separated by semicolons, for the same profiles. -/
  defaultCrlIssuer : String := ""
  /-- Where the status of certificates can be asked for, for profiles that do not say. -/
  defaultOcspLocator : String := ""
  /-- Whether user notices are written as UTF8String. -/
  useUtf8PolicyText : Bool := false
  /-- How many hours a revocation list is current. -/
  crlPeriodHours : Nat := 24
  /-- How many hours are between revocation lists; zero leaves it to the period. -/
  crlIssueIntervalHours : Nat := 0
  /-- How many minutes before the end of its predecessor a revocation list is issued. -/
  crlOverlapMinutes : Nat := 10
  /-- How many octets serial numbers have. -/
  serialNumberWidth : Nat := SerialNumber.defaultWidth
  /-- The certificate of the authority; while there is none, it is setting up its own root. -/
  certificate : Option IssuerCertificate := none
deriving DecidableEq, Repr

namespace Authority

/-- The settings in configuration texts. The certificate is not among them. -/
def settings : List (Setting Authority) :=
  [.member "name" .text (·.name) fun a s => { s with name := a },
   .member "subject_dn" .text (·.subjectDn) fun a s => { s with subjectDn := a },
   .member "dn_encoding" (.named NameEncoding.names)
      (·.dnEncoding) fun a s => { s with dnEncoding := a },
   .member "use_authority_key_identifier" .boolean
      (·.useAuthorityKeyIdentifier) fun a s => { s with useAuthorityKeyIdentifier := a },
   .member "authority_key_identifier_critical" .boolean
      (·.authorityKeyIdentifierCritical) fun a s => { s with authorityKeyIdentifierCritical := a },
   .member "use_crl_number" .boolean (·.useCrlNumber) fun a s => { s with useCrlNumber := a },
   .member "crl_number_critical" .boolean
      (·.crlNumberCritical) fun a s => { s with crlNumberCritical := a },
   .member "default_crl_distribution_point" .text
      (·.defaultCrlDistributionPoint) fun a s => { s with defaultCrlDistributionPoint := a },
   .member "default_crl_issuer" .text
      (·.defaultCrlIssuer) fun a s => { s with defaultCrlIssuer := a },
   .member "default_ocsp_locator" .text
      (·.defaultOcspLocator) fun a s => { s with defaultOcspLocator := a },
   .member "use_utf8_policy_text" .boolean
      (·.useUtf8PolicyText) fun a s => { s with useUtf8PolicyText := a },
   .member "crl_period_hours" (.below UInt64.size)
      (·.crlPeriodHours) fun a s => { s with crlPeriodHours := a },
   .member "crl_issue_interval_hours" (.below UInt64.size)
      (·.crlIssueIntervalHours) fun a s => { s with crlIssueIntervalHours := a },
   .member "crl_overlap_minutes" (.below UInt64.size)
      (·.crlOverlapMinutes) fun a s => { s with crlOverlapMinutes := a },
   .member "serial_number_width" (.below UInt64.size)
      (·.serialNumberWidth) fun a s => { s with serialNumberWidth := a }]

/-- The configured name of the authority in the form that certificates hold. -/
def encodedSubject (ca : Authority) : Except Error Name :=
  ParsedProfile.underHeading "CA subject DN" do
    (← DistinguishedName.parse ca.subjectDn).toName ca.dnEncoding

/-- The name in which the authority signs: the subject of its certificate, or the configured name
while it has none. -/
def issuerName (ca : Authority) : Except Error Name :=
  match ca.certificate with
  | none => ca.encodedSubject
  | some certificate => .ok certificate.subject

/-- Refuses a text that is not the name of an issuer of revocation lists or that has no encoded form. -/
def checkCrlIssuer (ca : Authority) (text : String) : Except Error Unit := do
  let _ ← ParsedProfile.underHeading "default CRL issuer" do
    (← DistinguishedName.parse text).toName ca.dnEncoding

/-- Refuses a place that is not ASCII. -/
def checkPlace (text : String) : Except Error Unit :=
  if Text.isAscii text then .ok ()
  else .error (.invalidProfile ("non-ASCII URI " ++ Text.quoted text))

/-- Checks the texts and numbers of a configuration. The first one that is wrong, in a fixed order, is
reported. -/
def validate (ca : Authority) : Except Error Unit := do
  let dn ← ParsedProfile.underHeading "CA subject DN" (DistinguishedName.parse ca.subjectDn)
  if dn.isEmpty then throw (.invalidProfile "CA subject DN is empty")
  let _ ← ParsedProfile.underHeading "CA subject DN" (dn.toName ca.dnEncoding)
  (Text.entries ca.defaultCrlIssuer).forM ca.checkCrlIssuer
  (Text.entries ca.defaultCrlDistributionPoint ++ Text.entries ca.defaultOcspLocator).forM
    checkPlace
  if ca.crlPeriodHours = 0 then throw (.invalidProfile "CRL period must be at least one hour")
  SerialNumber.checkWidth ca.serialNumberWidth

/-- Reads a configuration from a configuration text. -/
def ofToml (text : String) : Except Error Authority := do
  let some entries := Toml.parse text | throw (.configuration "not a TOML document")
  let some ca := Toml.readSettings entries settings {}
    | throw (.configuration "not a configuration of an authority")
  ca.validate
  return ca

end Authority

end CertAuthority
