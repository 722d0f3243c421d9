import CertAuthority.Der.Value

/-!
# Algorithm identifiers

An object identifier with optional parameters names a key type, a signature scheme or a cipher.
-/

namespace CertAuthority

open Der

/-- An algorithm and its parameters. -/
structure AlgorithmIdentifier where
  algorithm : Oid
  parameters : Option Any
deriving DecidableEq, Repr

namespace AlgorithmIdentifier

/-- The identifier of an algorithm whose parameters are NULL. -/
def withNull (algorithm : Oid) : AlgorithmIdentifier :=
  ⟨algorithm, some ⟨Tlv.null, rfl⟩⟩

/-- The DER form, in which parameters may be missing. -/
def tlv (a : AlgorithmIdentifier) : Tlv :=
  .sequence (.ofOid a.algorithm :: a.parameters.toList.map Any.tlv)

/-- Reads the DER form, whose identifier must not be too short. -/
def ofTlv? (t : Tlv) (shortest : Nat := shortestOid) : Option AlgorithmIdentifier := do
  match ← t.inside? Tag.sequence with
  | [algorithm] => return ⟨← algorithm.toOid? shortest, none⟩
  | [algorithm, parameters] =>
    return ⟨← algorithm.toOid? shortest, some (← Any.ofTlv? parameters)⟩
  | _ => none

end AlgorithmIdentifier

end CertAuthority
