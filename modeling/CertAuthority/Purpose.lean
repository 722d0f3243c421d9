/-!
# Purposes of keys

A certificate authority uses different keys for different tasks; every use of a key names its
purpose.
-/

namespace CertAuthority

/-- What a key is used for. -/
inductive Purpose where
  | certSign
  | crlSign
  | keyEncrypt
deriving DecidableEq, Repr

namespace Purpose

/-- The name of a purpose in messages. -/
def text : Purpose → String
  | certSign => "certSign"
  | crlSign => "crlSign"
  | keyEncrypt => "keyEncrypt"

end Purpose

end CertAuthority
