import CertAuthority.Certificate.Serial
import CertAuthority.Der.Field
import CertAuthority.Extension.Basic
import CertAuthority.Name.Basic
import CertAuthority.PublicKeyInfo
import CertAuthority.Time.Timestamp

/-!
# Certificates

A certificate binds a subject to a key for a time. The signed part comes first, then the algorithm
and the signature. The reader is strict: one spelling of each element, fields in order, nothing after
the last.
-/

namespace CertAuthority

open Der

/-- The signed part of a certificate. -/
structure TbsCertificate where
  version : Nat
  /-- The number that the authority gave it. -/
  serial : SerialNumber
  signature : AlgorithmIdentifier
  issuer : Name
  notBefore : Timestamp
  notAfter : Timestamp
  subject : Name
  publicKey : PublicKeyInfo
  /-- A mark of the issuer, which nobody uses any more. -/
  issuerUniqueId : Option BitString
  /-- A mark of the subject, which nobody uses any more. -/
  subjectUniqueId : Option BitString
  extensions : Option (List Extension)
deriving DecidableEq, Repr

/-- A certificate. -/
structure Certificate where
  tbs : TbsCertificate
  algorithm : AlgorithmIdentifier
  signature : BitString
deriving DecidableEq, Repr

namespace TbsCertificate

/-- The version of certificates that have extensions. -/
def v3 : Nat := 2

/-- The DER form of a window. -/
def validityTlv (notBefore notAfter : Timestamp) : Tlv :=
  .sequence [notBefore.tlv, notAfter.tlv]

/-- The DER form of the signed part. The first version is not mentioned. -/
def tlv (c : TbsCertificate) : Tlv :=
  .sequence
    ((if c.version = 0 then [] else [.explicit 0 (.ofInt c.version)]) ++
      [c.serial.tlv, c.signature.tlv, c.issuer.tlv, validityTlv c.notBefore c.notAfter,
       c.subject.tlv, c.publicKey.tlv] ++
      c.issuerUniqueId.toList.map (fun b => ⟨Tag.context 1, b.content⟩) ++
      c.subjectUniqueId.toList.map (fun b => ⟨Tag.context 2, b.content⟩) ++
      c.extensions.toList.map fun es => .explicit 3 (Extension.listTlv es))

/-- Reads a mark of the issuer or the subject. -/
def uniqueId? (n : UInt8) (t : Tlv) : Option BitString := do
  BitString.ofContent? (← t.content? (Tag.context n))

/-- Reads the version, which has three values. -/
def version? (t : Tlv) : Option Nat := do
  let n ← (← t.explicit? 0).toNat?
  if n ≤ 2 then some n else none

/-- Reads the DER form of a window. -/
def validityOfTlv? (t : Tlv) : Option (Timestamp × Timestamp) := do
  match ← t.inside? Tag.sequence with
  | [notBefore, notAfter] =>
    return (← Timestamp.ofTlv? notBefore, ← Timestamp.ofTlv? notAfter)
  | _ => none

/-- Reads the fields of a signed part behind its version. -/
def read? (version shortest : Nat) : List Tlv → Option TbsCertificate
  | serial :: signature :: issuer :: validity :: subject :: publicKey :: rest => do
    let (notBefore, notAfter) ← validityOfTlv? validity
    let (issuerUniqueId, rest) := Field.take 1 rest
    let (subjectUniqueId, rest) := Field.take 2 rest
    let (extensions, rest) := Field.take 3 rest
    if !rest.isEmpty then none
    return {
      version, notBefore, notAfter
      serial := ← SerialNumber.ofTlv? serial
      signature := ← AlgorithmIdentifier.ofTlv? signature shortest
      issuer := ← Name.ofTlv? issuer shortest
      subject := ← Name.ofTlv? subject shortest
      publicKey := ← PublicKeyInfo.ofTlv? publicKey shortest
      issuerUniqueId := ← Field.optional (uniqueId? 1) issuerUniqueId
      subjectUniqueId := ← Field.optional (uniqueId? 2) subjectUniqueId
      extensions := ← Field.optional
        (fun t => do Extension.listOfTlv? (← t.explicit? 3) shortest) extensions }
  | _ => none

/-- Reads a signed part; the version may be left out. -/
def ofTlv? (t : Tlv) (shortest : Nat := shortestOid) : Option TbsCertificate := do
  let (version, rest) := Field.take 0 (← t.inside? Tag.sequence)
  read? ((← Field.optional version? version).getD 0) shortest rest

end TbsCertificate

namespace Certificate

def tlv (c : Certificate) : Tlv :=
  .sequence [c.tbs.tlv, c.algorithm.tlv, .ofBitString c.signature]

def ofTlv? (t : Tlv) (shortest : Nat := shortestOid) : Option Certificate := do
  match ← t.inside? Tag.sequence with
  | [tbs, algorithm, signature] =>
    return ⟨← TbsCertificate.ofTlv? tbs shortest, ← AlgorithmIdentifier.ofTlv? algorithm shortest,
      ← signature.toBitString?⟩
  | _ => none

/-- Reads a certificate from its DER octets. -/
def decode? (bs : Octets) (shortest : Nat := shortestOid) : Option Certificate := do
  ofTlv? (← Tlv.decode? bs) shortest

end Certificate

end CertAuthority
