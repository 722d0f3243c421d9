import CertAuthority.Oid

/-!
# Assigned object identifiers

The identifiers that names, extensions, algorithms and enveloped data are built from.
-/

namespace CertAuthority.Oid

/-! ## Attribute types of names -/

/-- Common name, 2.5.4.3. -/
def commonName : Oid := ⟨[0x55, 4, 3], by decide⟩

/-- Surname, 2.5.4.4. -/
def surname : Oid := ⟨[0x55, 4, 4], by decide⟩

/-- Serial number of a person or device, 2.5.4.5. -/
def serialNumber : Oid := ⟨[0x55, 4, 5], by decide⟩

/-- Country, 2.5.4.6. -/
def country : Oid := ⟨[0x55, 4, 6], by decide⟩

/-- Locality, 2.5.4.7. -/
def locality : Oid := ⟨[0x55, 4, 7], by decide⟩

/-- State or province, 2.5.4.8. -/
def state : Oid := ⟨[0x55, 4, 8], by decide⟩

/-- Street address, 2.5.4.9. -/
def street : Oid := ⟨[0x55, 4, 9], by decide⟩

/-- Organization, 2.5.4.10. -/
def organization : Oid := ⟨[0x55, 4, 10], by decide⟩

/-- Organizational unit, 2.5.4.11. -/
def organizationalUnit : Oid := ⟨[0x55, 4, 11], by decide⟩

/-- Title, 2.5.4.12. -/
def title : Oid := ⟨[0x55, 4, 12], by decide⟩

/-- Postal code, 2.5.4.17. -/
def postalCode : Oid := ⟨[0x55, 4, 17], by decide⟩

/-- Given name, 2.5.4.42. -/
def givenName : Oid := ⟨[0x55, 4, 42], by decide⟩

/-- Initials, 2.5.4.43. -/
def initials : Oid := ⟨[0x55, 4, 43], by decide⟩

/-- Generation qualifier, 2.5.4.44. -/
def generationQualifier : Oid := ⟨[0x55, 4, 44], by decide⟩

/-- Distinguished name qualifier, 2.5.4.46. -/
def dnQualifier : Oid := ⟨[0x55, 4, 46], by decide⟩

/-- Pseudonym, 2.5.4.65. -/
def pseudonym : Oid := ⟨[0x55, 4, 65], by decide⟩

/-- User identifier, 0.9.2342.19200300.100.1.1. -/
def userId : Oid := ⟨[9, 0x92, 0x26, 0x89, 0x93, 0xF2, 0x2C, 0x64, 1, 1], by decide⟩

/-- Domain component, 0.9.2342.19200300.100.1.25. -/
def domainComponent : Oid := ⟨[9, 0x92, 0x26, 0x89, 0x93, 0xF2, 0x2C, 0x64, 1, 25], by decide⟩

/-- Electronic mail address, 1.2.840.113549.1.9.1. -/
def emailAddress : Oid := ⟨[0x2A, 0x86, 0x48, 0x86, 0xF7, 0x0D, 1, 9, 1], by decide⟩

/-! ## Extensions of certificates and revocation lists -/

/-- Subject directory attributes, 2.5.29.9. -/
def subjectDirectoryAttributes : Oid := ⟨[0x55, 0x1D, 9], by decide⟩

/-- Subject key identifier, 2.5.29.14. -/
def subjectKeyIdentifier : Oid := ⟨[0x55, 0x1D, 14], by decide⟩

/-- Key usage, 2.5.29.15. -/
def keyUsage : Oid := ⟨[0x55, 0x1D, 15], by decide⟩

/-- Subject alternative name, 2.5.29.17. -/
def subjectAltName : Oid := ⟨[0x55, 0x1D, 17], by decide⟩

/-- Basic constraints, 2.5.29.19. -/
def basicConstraints : Oid := ⟨[0x55, 0x1D, 19], by decide⟩

/-- CRL number, 2.5.29.20. -/
def crlNumber : Oid := ⟨[0x55, 0x1D, 20], by decide⟩

/-- Reason code of a revocation, 2.5.29.21. -/
def reasonCode : Oid := ⟨[0x55, 0x1D, 21], by decide⟩

/-- CRL distribution points, 2.5.29.31. -/
def crlDistributionPoints : Oid := ⟨[0x55, 0x1D, 31], by decide⟩

/-- Certificate policies, 2.5.29.32. -/
def certificatePolicies : Oid := ⟨[0x55, 0x1D, 32], by decide⟩

/-- Authority key identifier, 2.5.29.35. -/
def authorityKeyIdentifier : Oid := ⟨[0x55, 0x1D, 35], by decide⟩

/-- Extended key usage, 2.5.29.37. -/
def extendedKeyUsage : Oid := ⟨[0x55, 0x1D, 37], by decide⟩

/-- Any extended key usage, 2.5.29.37.0. -/
def anyExtendedKeyUsage : Oid := ⟨[0x55, 0x1D, 37, 0], by decide⟩

/-- Authority information access, 1.3.6.1.5.5.7.1.1. -/
def authorityInfoAccess : Oid := ⟨[0x2B, 6, 1, 5, 5, 7, 1, 1], by decide⟩

/-- Qualified certificate statements, 1.3.6.1.5.5.7.1.3. -/
def qcStatements : Oid := ⟨[0x2B, 6, 1, 5, 5, 7, 1, 3], by decide⟩

/-- Certificate template name, 1.3.6.1.4.1.311.20.2. -/
def certificateTemplateName : Oid :=
  ⟨[0x2B, 6, 1, 4, 1, 0x82, 0x37, 20, 2], by decide⟩

/-! ## Policy qualifiers and access methods -/

/-- Certification practice statement, 1.3.6.1.5.5.7.2.1. -/
def cpsQualifier : Oid := ⟨[0x2B, 6, 1, 5, 5, 7, 2, 1], by decide⟩

/-- User notice, 1.3.6.1.5.5.7.2.2. -/
def userNoticeQualifier : Oid := ⟨[0x2B, 6, 1, 5, 5, 7, 2, 2], by decide⟩

/-- Online certificate status, 1.3.6.1.5.5.7.48.1. -/
def ocspAccess : Oid := ⟨[0x2B, 6, 1, 5, 5, 7, 48, 1], by decide⟩

/-! ## Extended key usages -/

/-- Server authentication, 1.3.6.1.5.5.7.3.1. -/
def serverAuth : Oid := ⟨[0x2B, 6, 1, 5, 5, 7, 3, 1], by decide⟩

/-- Client authentication, 1.3.6.1.5.5.7.3.2. -/
def clientAuth : Oid := ⟨[0x2B, 6, 1, 5, 5, 7, 3, 2], by decide⟩

/-- Code signing, 1.3.6.1.5.5.7.3.3. -/
def codeSigning : Oid := ⟨[0x2B, 6, 1, 5, 5, 7, 3, 3], by decide⟩

/-- Protection of electronic mail, 1.3.6.1.5.5.7.3.4. -/
def emailProtection : Oid := ⟨[0x2B, 6, 1, 5, 5, 7, 3, 4], by decide⟩

/-- Time stamping, 1.3.6.1.5.5.7.3.8. -/
def timeStamping : Oid := ⟨[0x2B, 6, 1, 5, 5, 7, 3, 8], by decide⟩

/-- Signing of status responses, 1.3.6.1.5.5.7.3.9. -/
def ocspSigning : Oid := ⟨[0x2B, 6, 1, 5, 5, 7, 3, 9], by decide⟩

/-- Smart card logon, 1.3.6.1.4.1.311.20.2.2. -/
def smartcardLogon : Oid := ⟨[0x2B, 6, 1, 4, 1, 0x82, 0x37, 20, 2, 2], by decide⟩

/-! ## Qualified certificate statements -/

/-- Syntax of statements, first version, 1.3.6.1.5.5.7.11.1. -/
def qcSyntaxV1 : Oid := ⟨[0x2B, 6, 1, 5, 5, 7, 11, 1], by decide⟩

/-- Syntax of statements, second version, 1.3.6.1.5.5.7.11.2. -/
def qcSyntaxV2 : Oid := ⟨[0x2B, 6, 1, 5, 5, 7, 11, 2], by decide⟩

/-- Compliance with the directive on electronic signatures, 0.4.0.1862.1.1. -/
def etsiQcCompliance : Oid := ⟨[4, 0, 0x8E, 0x46, 1, 1], by decide⟩

/-- Limit on the value of transactions, 0.4.0.1862.1.2. -/
def etsiLimitValue : Oid := ⟨[4, 0, 0x8E, 0x46, 1, 2], by decide⟩

/-- Key in a secure signature creation device, 0.4.0.1862.1.4. -/
def etsiQcSscd : Oid := ⟨[4, 0, 0x8E, 0x46, 1, 4], by decide⟩

/-! ## Subject directory attributes -/

/-- Date of birth, 1.3.6.1.5.5.7.9.1. -/
def dateOfBirth : Oid := ⟨[0x2B, 6, 1, 5, 5, 7, 9, 1], by decide⟩

/-- Place of birth, 1.3.6.1.5.5.7.9.2. -/
def placeOfBirth : Oid := ⟨[0x2B, 6, 1, 5, 5, 7, 9, 2], by decide⟩

/-- Gender, 1.3.6.1.5.5.7.9.3. -/
def gender : Oid := ⟨[0x2B, 6, 1, 5, 5, 7, 9, 3], by decide⟩

/-- Country of citizenship, 1.3.6.1.5.5.7.9.4. -/
def countryOfCitizenship : Oid := ⟨[0x2B, 6, 1, 5, 5, 7, 9, 4], by decide⟩

/-- Country of residence, 1.3.6.1.5.5.7.9.5. -/
def countryOfResidence : Oid := ⟨[0x2B, 6, 1, 5, 5, 7, 9, 5], by decide⟩

/-! ## Algorithms and content types -/

/-- RSA keys, 1.2.840.113549.1.1.1. -/
def rsaEncryption : Oid := ⟨[0x2A, 0x86, 0x48, 0x86, 0xF7, 0x0D, 1, 1, 1], by decide⟩

/-- RSA signatures with SHA-256, 1.2.840.113549.1.1.11. -/
def sha256WithRsa : Oid := ⟨[0x2A, 0x86, 0x48, 0x86, 0xF7, 0x0D, 1, 1, 11], by decide⟩

/-- RSA signatures with SHA-384, 1.2.840.113549.1.1.12. -/
def sha384WithRsa : Oid := ⟨[0x2A, 0x86, 0x48, 0x86, 0xF7, 0x0D, 1, 1, 12], by decide⟩

/-- RSA signatures with SHA-512, 1.2.840.113549.1.1.13. -/
def sha512WithRsa : Oid := ⟨[0x2A, 0x86, 0x48, 0x86, 0xF7, 0x0D, 1, 1, 13], by decide⟩

/-- The hash SHA-256, 2.16.840.1.101.3.4.2.1. -/
def sha256 : Oid := ⟨[0x60, 0x86, 0x48, 1, 0x65, 3, 4, 2, 1], by decide⟩

/-- The hash SHA-384, 2.16.840.1.101.3.4.2.2. -/
def sha384 : Oid := ⟨[0x60, 0x86, 0x48, 1, 0x65, 3, 4, 2, 2], by decide⟩

/-- The hash SHA-512, 2.16.840.1.101.3.4.2.3. -/
def sha512 : Oid := ⟨[0x60, 0x86, 0x48, 1, 0x65, 3, 4, 2, 3], by decide⟩

/-- AES with a key of 256 bits in CBC mode, 2.16.840.1.101.3.4.1.42. -/
def aes256Cbc : Oid := ⟨[0x60, 0x86, 0x48, 1, 0x65, 3, 4, 1, 42], by decide⟩

/-- Content type of plain data, 1.2.840.113549.1.7.1. -/
def data : Oid := ⟨[0x2A, 0x86, 0x48, 0x86, 0xF7, 0x0D, 1, 7, 1], by decide⟩

/-- Content type of enveloped data, 1.2.840.113549.1.7.3. -/
def envelopedData : Oid := ⟨[0x2A, 0x86, 0x48, 0x86, 0xF7, 0x0D, 1, 7, 3], by decide⟩

end CertAuthority.Oid
