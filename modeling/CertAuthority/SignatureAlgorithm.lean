import CertAuthority.AlgorithmIdentifier
import CertAuthority.Hash.Sha256
import CertAuthority.Hash.Sha512
import CertAuthority.Oid.Known

/-!
# Signature algorithms

Certificates and revocation lists are signed with RSA in its PKCS #1 version 1.5 form over one of
three hashes.
-/

namespace CertAuthority

open Der

/-- A way to sign. -/
inductive SignatureAlgorithm where
  | sha256WithRsa
  | sha384WithRsa
  | sha512WithRsa
deriving DecidableEq, Repr

namespace SignatureAlgorithm

/-- The algorithms with the names that configuration texts use for them. -/
def names : List (String × SignatureAlgorithm) :=
  [("sha256-with-rsa", sha256WithRsa), ("sha384-with-rsa", sha384WithRsa),
   ("sha512-with-rsa", sha512WithRsa)]

/-- The identifier of an algorithm. -/
def oid : SignatureAlgorithm → Oid
  | sha256WithRsa => Oid.sha256WithRsa
  | sha384WithRsa => Oid.sha384WithRsa
  | sha512WithRsa => Oid.sha512WithRsa

/-- The algorithm that an object identifier names. -/
def ofOid? (oid : Oid) : Option SignatureAlgorithm :=
  [sha256WithRsa, sha384WithRsa, sha512WithRsa].find? fun a => a.oid = oid

/-- The identifier that signed structures carry; its parameters are NULL. -/
def identifier (a : SignatureAlgorithm) : AlgorithmIdentifier :=
  .withNull a.oid

/-- The identifier of the hash that an algorithm signs. -/
def hashOid : SignatureAlgorithm → Oid
  | sha256WithRsa => Oid.sha256
  | sha384WithRsa => Oid.sha384
  | sha512WithRsa => Oid.sha512

/-- The hash that an algorithm signs. -/
def hash : SignatureAlgorithm → Octets → Octets
  | sha256WithRsa => Hash.Sha256.hash
  | sha384WithRsa => Hash.Sha512.hash384
  | sha512WithRsa => Hash.Sha512.hash

/-- The hash of a message together with the name of the hash, as it is signed. -/
def digestInfo (a : SignatureAlgorithm) (message : Octets) : Octets :=
  (Tlv.sequence [(AlgorithmIdentifier.withNull a.hashOid).tlv,
    .ofOctets (a.hash message)]).encode

end SignatureAlgorithm

end CertAuthority
