import CertAuthority.Certificate.Encoded
import CertAuthority.Rsa.PrivateKey

/-!
# Key pairs to be recovered

A key pair is kept as the octets of its private key and its public key. Nothing is asked of the
private key, which may be of any algorithm.
-/

namespace CertAuthority

open Der

/-- A key pair. -/
structure KeyPair where
  /-- The octets of the private key. -/
  privateKey : Octets
  publicKey : PublicKeyInfo
deriving DecidableEq, Repr

namespace KeyPair

/-- The key pair of an RSA key. -/
def ofRsa (key : Rsa.PrivateKey) : Except Error KeyPair := do
  let privateKey ← key.encode.mapError fun e => .recovery e.message
  return { privateKey, publicKey := key.publicKey.info }

/-- The text that stands for a key pair in reports; it does not show the private key. -/
def summary (p : KeyPair) : String :=
  "KeyPair \x7b private_key: \"<redacted>\", public_key: " ++
    p.publicKey.algorithm.algorithm.summary ++ " \x7d"

/-- The DER form: the private key and the public one. -/
def tlv (p : KeyPair) : Tlv :=
  .sequence [.ofOctets p.privateKey, p.publicKey.tlv]

/-- Reads the DER form. -/
def ofTlv? (t : Tlv) (shortest : Nat := shortestOid) : Option KeyPair := do
  match ← t.inside? Tag.sequence with
  | [privateKey, publicKey] =>
    return ⟨← privateKey.toOctets?, ← PublicKeyInfo.ofTlv? publicKey shortest⟩
  | _ => none

/-- Reads the DER octets of a key pair and nothing behind them. -/
def decode? (bs : Octets) (shortest : Nat := shortestOid) : Option KeyPair := do
  ofTlv? (← Tlv.decode? bs) shortest

end KeyPair

end CertAuthority
