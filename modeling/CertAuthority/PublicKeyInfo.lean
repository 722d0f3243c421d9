import CertAuthority.AlgorithmIdentifier
import CertAuthority.Hash.Sha1

/-!
# Public keys of any algorithm

A certificate holds its subject's key together with the algorithm that the key is for. The key itself
is a string of bits whose form the algorithm decides. Key identifiers are hashes of those bits.
-/

namespace CertAuthority

open Der

/-- A public key and its algorithm. -/
structure PublicKeyInfo where
  algorithm : AlgorithmIdentifier
  /-- The key, in the form of its algorithm. -/
  key : BitString
deriving DecidableEq, Repr

namespace PublicKeyInfo

/-- The DER form of a public key. -/
def tlv (k : PublicKeyInfo) : Tlv :=
  .sequence [k.algorithm.tlv, .ofBitString k.key]

/-- Reads the DER form, whose identifiers must not be too short. -/
def ofTlv? (t : Tlv) (shortest : Nat := shortestOid) : Option PublicKeyInfo := do
  match ← t.inside? Tag.sequence with
  | [algorithm, key] =>
    return ⟨← AlgorithmIdentifier.ofTlv? algorithm shortest, ← key.toBitString?⟩
  | _ => none

/-- The DER octets of a public key. -/
def encode (k : PublicKeyInfo) : Octets :=
  k.tlv.encode

/-- Reads the DER octets of a public key and nothing behind them. -/
def decode? (bs : Octets) : Option PublicKeyInfo := do
  ofTlv? (← Tlv.decode? bs)

/-- The identifier of a key: the SHA-1 hash of its bits. -/
def keyIdentifier (k : PublicKeyInfo) : Octets :=
  Hash.Sha1.hash k.key.octets

end PublicKeyInfo

end CertAuthority
