import CertAuthority.Purpose

/-!
# What can go wrong

The operations of the authority fail with one of these errors. The constructor says who has to act:
the keeper of the token, of the configuration or of the request, or nobody but the authority itself.
-/

namespace CertAuthority

/-- Why an operation failed. -/
inductive Error where
  /-- The token is off line or has no key for the purpose. -/
  | tokenOffline (purpose : Purpose)
  /-- The token has the key, but using it failed. -/
  | tokenOperation (purpose : Purpose) (details : String)
  /-- A profile or the configuration of the authority has a malformed value. -/
  | invalidProfile (details : String)
  /-- The data of a request cannot be used. -/
  | invalidSubject (details : String)
  /-- The certificate of the authority cannot be used. -/
  | invalidCaCertificate (details : String)
  /-- What was signed does not verify. -/
  | integrity (details : String)
  /-- A key pair cannot be wrapped or unwrapped. -/
  | recovery (details : String)
  /-- A configuration text cannot be read. -/
  | configuration (details : String)
  /-- A value has no DER form. -/
  | der
deriving DecidableEq, Repr

/-- The wording of an error. -/
def Error.message : Error → String
  | tokenOffline purpose => "CA token offline: no usable " ++ purpose.text ++ " key"
  | tokenOperation purpose details =>
    "CA token " ++ purpose.text ++ " operation failed: " ++ details
  | invalidProfile details => "invalid profile configuration: " ++ details
  | invalidSubject details => "invalid subject request: " ++ details
  | invalidCaCertificate details => "invalid CA certificate: " ++ details
  | integrity details => "integrity check failed: " ++ details
  | recovery details => "key recovery failed: " ++ details
  | configuration details => "configuration error: " ++ details
  | der => "value cannot be encoded"

end CertAuthority
