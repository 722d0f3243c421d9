import CertAuthority.AltName.Basic
import CertAuthority.KeyUsage
import CertAuthority.Toml.Setting

/-!
# Certificate profiles

A profile says what the certificates of one kind look like: how long they are valid, which
extensions they have and what stands in them, and what a request may decide for itself. The texts of
a profile are checked where they are parsed, in `Config.ParsedProfile`.
-/

namespace CertAuthority

open Toml

/-- The kinds of certificates. -/
inductive ProfileKind where
  /-- Certificates of those who are no authorities. -/
  | endEntity
  /-- Certificates of authorities below another one. -/
  | subCa
  /-- Certificates of authorities that sign their own. -/
  | rootCa
deriving DecidableEq, Repr

namespace ProfileKind

/-- The kinds with their names in configuration texts. -/
def names : List (String × ProfileKind) :=
  [("end_entity", endEntity), ("sub_ca", subCa), ("root_ca", rootCa)]

/-- Whether certificates of a kind are those of authorities. -/
def isCa (kind : ProfileKind) : Bool :=
  kind != endEntity

end ProfileKind

/-- The kinds of alternative names with their names in configuration texts. -/
def AltNameKind.settingNames : List (String × AltNameKind) :=
  [("rfc822_name", rfc822Name), ("dns_name", dnsName), ("uri", uri), ("ip_address", ipAddress),
   ("directory_name", directoryName), ("registered_id", registeredId)]

/-- What the statements of qualified certificates say. -/
structure QcSettings where
  /-- Whether the syntax is the second version. -/
  usePkixQcSyntaxV2 : Bool := false
  /-- The identifier of the semantics, or nothing. -/
  semanticsId : String := ""
  /-- Who registers names, in the form of alternative names, or nothing. -/
  raName : String := ""
  /-- Whether certificates claim to comply with the directive. -/
  useEtsiQcCompliance : Bool := false
  useEtsiValueLimit : Bool := false
  etsiValueLimit : Int := 0
  /-- The power of ten that the limit is multiplied with. -/
  etsiValueLimitExponent : Int := 0
  etsiValueLimitCurrency : String := ""
  /-- Whether the key is in a secure device. -/
  useEtsiSscd : Bool := false
  /-- Whether there is a statement with a text. -/
  useCustomString : Bool := false
  customStringOid : String := ""
  customStringText : String := ""
deriving DecidableEq, Repr

namespace QcSettings

/-- The statements for qualified certificates by their names in configuration texts. -/
def settings : List (Setting QcSettings) :=
  [.member "use_pkix_qc_syntax_v2" .boolean
      (·.usePkixQcSyntaxV2) fun a s => { s with usePkixQcSyntaxV2 := a },
   .member "semantics_id" .text (·.semanticsId) fun a s => { s with semanticsId := a },
   .member "ra_name" .text (·.raName) fun a s => { s with raName := a },
   .member "use_etsi_qc_compliance" .boolean
      (·.useEtsiQcCompliance) fun a s => { s with useEtsiQcCompliance := a },
   .member "use_etsi_value_limit" .boolean
      (·.useEtsiValueLimit) fun a s => { s with useEtsiValueLimit := a },
   .member "etsi_value_limit" .signed (·.etsiValueLimit) fun a s => { s with etsiValueLimit := a },
   .member "etsi_value_limit_exponent" .signed
      (·.etsiValueLimitExponent) fun a s => { s with etsiValueLimitExponent := a },
   .member "etsi_value_limit_currency" .text
      (·.etsiValueLimitCurrency) fun a s => { s with etsiValueLimitCurrency := a },
   .member "use_etsi_sscd" .boolean (·.useEtsiSscd) fun a s => { s with useEtsiSscd := a },
   .member "use_custom_string" .boolean
      (·.useCustomString) fun a s => { s with useCustomString := a },
   .member "custom_string_oid" .text (·.customStringOid) fun a s => { s with customStringOid := a },
   .member "custom_string_text" .text
      (·.customStringText) fun a s => { s with customStringText := a }]

end QcSettings

/-- A profile. What is not said otherwise is as for certificates of persons: two years, signatures
and encryption of keys, authentication of clients and protection of mail. -/
structure Profile where
  name : String := "ENDUSER"
  /-- What kind of certificates it is for. -/
  kind : ProfileKind := .endEntity
  /-- How many days a certificate is valid. -/
  validityDays : Nat := 730
  /-- Whether a request may choose the dates. -/
  allowValidityOverride : Bool := false
  /-- Whether a request may choose the key usage. -/
  allowKeyUsageOverride : Bool := false
  useBasicConstraints : Bool := true
  basicConstraintsCritical : Bool := true
  /-- Whether the certificates of authorities limit the length of paths. -/
  usePathLengthConstraint : Bool := false
  /-- The limit on the length of paths. -/
  pathLengthConstraint : Nat := 0
  /-- Whether certificates have a key usage. -/
  useKeyUsage : Bool := true
  /-- Whether the key usage is critical. -/
  keyUsageCritical : Bool := true
  /-- The key usage, unless a request chooses another. -/
  keyUsage : KeyUsage := [.digitalSignature, .nonRepudiation, .keyEncipherment]
  /-- Whether certificates have an extended key usage. -/
  useExtendedKeyUsage : Bool := true
  /-- Whether the extended key usage is critical. -/
  extendedKeyUsageCritical : Bool := false
  /-- The extended key usages, by name or dotted identifier. -/
  extendedKeyUsage : List String := ["client_auth", "email_protection"]
  /-- Whether certificates name their subject's key. -/
  useSubjectKeyIdentifier : Bool := true
  /-- Whether the subject key identifier is critical. -/
  subjectKeyIdentifierCritical : Bool := false
  /-- Whether certificates name the authority's key. -/
  useAuthorityKeyIdentifier : Bool := true
  /-- Whether the authority key identifier is critical. -/
  authorityKeyIdentifierCritical : Bool := false
  useSubjectAltName : Bool := true
  /-- Whether the alternative names are critical. -/
  subjectAltNameCritical : Bool := false
  useCertificatePolicies : Bool := false
  certificatePoliciesCritical : Bool := false
  /-- The identifiers of the policies, separated by semicolons. -/
  certificatePolicyId : String := ""
  /-- Where the practice statement of the first policy is. -/
  policyCpsUrl : String := ""
  /-- The notice of the first policy. -/
  policyUserNoticeText : String := ""
  /-- Whether certificates say where revocation lists are. -/
  useCrlDistributionPoint : Bool := false
  /-- Whether the distribution points are critical. -/
  crlDistributionPointCritical : Bool := false
  /-- Whether the distribution points are those of the authority. -/
  useDefaultCrlDistributionPoint : Bool := false
  /-- Where revocation lists are, separated by semicolons. -/
  crlDistributionPointUri : String := ""
  /-- Who issues revocation lists, separated by semicolons, in the order of the places. -/
  crlIssuer : String := ""
  /-- Whether certificates say where their status can be asked for. -/
  useOcspServiceLocator : Bool := false
  /-- Whether that place is the one of the authority. -/
  useDefaultOcspServiceLocator : Bool := false
  /-- Where the status can be asked for. -/
  ocspServiceLocatorUri : String := ""
  useMicrosoftTemplate : Bool := false
  microsoftTemplate : String := ""
  /-- Whether certificates have statements of qualified certificates. -/
  useQcStatements : Bool := false
  qcStatementsCritical : Bool := false
  qcStatements : QcSettings := {}
  useSubjectDirectoryAttributes : Bool := false
  /-- Whether only some attribute types of the subject are kept. -/
  useSubjectDnSubset : Bool := false
  /-- The attribute types that are kept. -/
  subjectDnSubset : List String := []
  /-- Whether only some kinds of alternative names are kept. -/
  useSubjectAltNameSubset : Bool := false
  /-- The kinds of alternative names that are kept. -/
  subjectAltNameSubset : List AltNameKind := []
  /-- Whether common names get a suffix. -/
  useCnPostfix : Bool := false
  cnPostfix : String := ""
  /-- The numbers of the registered extensions that are added, in order. -/
  certificateExtensions : List Nat := []
deriving DecidableEq, Repr

namespace Profile

/-- The members of a profile by their names in configuration texts. -/
def settings : List (Setting Profile) :=
  [.member "name" .text (·.name) fun a s => { s with name := a },
   .member "profile_type" (.named ProfileKind.names) (·.kind) fun a s => { s with kind := a },
   .member "validity_days" (.below UInt64.size)
      (·.validityDays) fun a s => { s with validityDays := a },
   .member "allow_validity_override" .boolean
      (·.allowValidityOverride) fun a s => { s with allowValidityOverride := a },
   .member "allow_key_usage_override" .boolean
      (·.allowKeyUsageOverride) fun a s => { s with allowKeyUsageOverride := a },
   .member "use_basic_constraints" .boolean
      (·.useBasicConstraints) fun a s => { s with useBasicConstraints := a },
   .member "basic_constraints_critical" .boolean
      (·.basicConstraintsCritical) fun a s => { s with basicConstraintsCritical := a },
   .member "use_path_length_constraint" .boolean
      (·.usePathLengthConstraint) fun a s => { s with usePathLengthConstraint := a },
   .member "path_length_constraint" (.below 256)
      (·.pathLengthConstraint) fun a s => { s with pathLengthConstraint := a },
   .member "use_key_usage" .boolean (·.useKeyUsage) fun a s => { s with useKeyUsage := a },
   .member "key_usage_critical" .boolean
      (·.keyUsageCritical) fun a s => { s with keyUsageCritical := a },
   .member "key_usage" (.list (.named KeyUsageBit.names))
      (·.keyUsage) fun a s => { s with keyUsage := a },
   .member "use_extended_key_usage" .boolean
      (·.useExtendedKeyUsage) fun a s => { s with useExtendedKeyUsage := a },
   .member "extended_key_usage_critical" .boolean
      (·.extendedKeyUsageCritical) fun a s => { s with extendedKeyUsageCritical := a },
   .member "extended_key_usage" (.list .text)
      (·.extendedKeyUsage) fun a s => { s with extendedKeyUsage := a },
   .member "use_subject_key_identifier" .boolean
      (·.useSubjectKeyIdentifier) fun a s => { s with useSubjectKeyIdentifier := a },
   .member "subject_key_identifier_critical" .boolean
      (·.subjectKeyIdentifierCritical) fun a s => { s with subjectKeyIdentifierCritical := a },
   .member "use_authority_key_identifier" .boolean
      (·.useAuthorityKeyIdentifier) fun a s => { s with useAuthorityKeyIdentifier := a },
   .member "authority_key_identifier_critical" .boolean
      (·.authorityKeyIdentifierCritical) fun a s => { s with authorityKeyIdentifierCritical := a },
   .member "use_subject_alternative_name" .boolean
      (·.useSubjectAltName) fun a s => { s with useSubjectAltName := a },
   .member "subject_alternative_name_critical" .boolean
      (·.subjectAltNameCritical) fun a s => { s with subjectAltNameCritical := a },
   .member "use_certificate_policies" .boolean
      (·.useCertificatePolicies) fun a s => { s with useCertificatePolicies := a },
   .member "certificate_policies_critical" .boolean
      (·.certificatePoliciesCritical) fun a s => { s with certificatePoliciesCritical := a },
   .member "certificate_policy_id" .text
      (·.certificatePolicyId) fun a s => { s with certificatePolicyId := a },
   .member "policy_cps_url" .text (·.policyCpsUrl) fun a s => { s with policyCpsUrl := a },
   .member "policy_user_notice_text" .text
      (·.policyUserNoticeText) fun a s => { s with policyUserNoticeText := a },
   .member "use_crl_distribution_point" .boolean
      (·.useCrlDistributionPoint) fun a s => { s with useCrlDistributionPoint := a },
   .member "crl_distribution_point_critical" .boolean
      (·.crlDistributionPointCritical) fun a s => { s with crlDistributionPointCritical := a },
   .member "use_default_crl_distribution_point" .boolean
      (·.useDefaultCrlDistributionPoint) fun a s => { s with useDefaultCrlDistributionPoint := a },
   .member "crl_distribution_point_uri" .text
      (·.crlDistributionPointUri) fun a s => { s with crlDistributionPointUri := a },
   .member "crl_issuer" .text (·.crlIssuer) fun a s => { s with crlIssuer := a },
   .member "use_ocsp_service_locator" .boolean
      (·.useOcspServiceLocator) fun a s => { s with useOcspServiceLocator := a },
   .member "use_default_ocsp_service_locator" .boolean
      (·.useDefaultOcspServiceLocator) fun a s => { s with useDefaultOcspServiceLocator := a },
   .member "ocsp_service_locator_uri" .text
      (·.ocspServiceLocatorUri) fun a s => { s with ocspServiceLocatorUri := a },
   .member "use_microsoft_template" .boolean
      (·.useMicrosoftTemplate) fun a s => { s with useMicrosoftTemplate := a },
   .member "microsoft_template" .text
      (·.microsoftTemplate) fun a s => { s with microsoftTemplate := a },
   .member "use_qc_statements" .boolean
      (·.useQcStatements) fun a s => { s with useQcStatements := a },
   .member "qc_statements_critical" .boolean
      (·.qcStatementsCritical) fun a s => { s with qcStatementsCritical := a },
   .group "qc_statements" QcSettings.settings {}
      (·.qcStatements) fun a s => { s with qcStatements := a },
   .member "use_subject_directory_attributes" .boolean
      (·.useSubjectDirectoryAttributes) fun a s => { s with useSubjectDirectoryAttributes := a },
   .member "use_subject_dn_subset" .boolean
      (·.useSubjectDnSubset) fun a s => { s with useSubjectDnSubset := a },
   .member "subject_dn_subset" (.list .text)
      (·.subjectDnSubset) fun a s => { s with subjectDnSubset := a },
   .member "use_subject_alt_name_subset" .boolean
      (·.useSubjectAltNameSubset) fun a s => { s with useSubjectAltNameSubset := a },
   .member "subject_alt_name_subset" (.list (.named AltNameKind.settingNames))
      (·.subjectAltNameSubset) fun a s => { s with subjectAltNameSubset := a },
   .member "use_cn_postfix" .boolean (·.useCnPostfix) fun a s => { s with useCnPostfix := a },
   .member "cn_postfix" .text (·.cnPostfix) fun a s => { s with cnPostfix := a },
   .member "certificate_extensions" (.list (.below UInt32.size))
      (·.certificateExtensions) fun a s => { s with certificateExtensions := a }]

/-- The profile of those who are no authorities. -/
def endUser : Profile := {}

/-- The profile of authorities below another one: twenty-five years, signatures on certificates and
revocation lists. -/
def subCa : Profile where
  name := "SUBCA"
  kind := .subCa
  validityDays := 25 * 365
  keyUsage := [.digitalSignature, .keyCertSign, .crlSign]
  useExtendedKeyUsage := false
  extendedKeyUsage := []
  useSubjectAltName := false

/-- The profile of authorities that sign their own certificate. -/
def rootCa : Profile :=
  { subCa with name := "ROOTCA", kind := .rootCa }

end Profile

end CertAuthority
