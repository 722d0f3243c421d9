import CertAuthority.Certificate.Serial
import CertAuthority.Der.Field
import CertAuthority.Name.Basic
import CertAuthority.PublicKeyInfo
import CertAuthority.Time.Timestamp

/-!
# Recipients of an envelope

An envelope holds its content key once for each recipient. Only recipients with a key transport key
are of use here; the other kinds are checked for their shape and kept as they are.
-/

namespace CertAuthority.Recovery

open Der

/-- Reads a version of the structures of an envelope. -/
def version? (t : Tlv) : Option Nat := do
  let n ← t.toNat?
  if n ≤ 5 then some n else none

/-- What tells a recipient from others. -/
inductive RecipientId where
  /-- The issuer and the number of the recipient's certificate. -/
  | certificate (issuer : Name) (serial : SerialNumber)
  /-- The identifier of the recipient's key. -/
  | key (id : Octets)
deriving DecidableEq, Repr

namespace RecipientId

def tlv : RecipientId → Tlv
  | certificate issuer serial => .sequence [issuer.tlv, serial.tlv]
  | key id => ⟨Tag.context 0, id⟩

/-- Reads what tells a recipient, by the tag of it. -/
def ofTlv? (t : Tlv) : Option RecipientId :=
  if t.tag = Tag.context 0 then some (key t.content)
  else do
    match ← t.inside? Tag.sequence with
    | [issuer, serial] => return certificate (← Name.ofTlv? issuer) (← SerialNumber.ofTlv? serial)
    | _ => none

end RecipientId

/-- A recipient with a key transport key. -/
structure KeyTransport where
  version : Nat
  recipient : RecipientId
  /-- How the content key is encrypted. -/
  algorithm : AlgorithmIdentifier
  encryptedKey : Octets
deriving DecidableEq, Repr

namespace KeyTransport

/-- The DER form of a recipient with a key transport key. -/
def tlv (k : KeyTransport) : Tlv :=
  .sequence [.ofInt k.version, k.recipient.tlv, k.algorithm.tlv, .ofOctets k.encryptedKey]

/-- Reads the DER form of a recipient with a key transport key. -/
def ofTlv? (t : Tlv) : Option KeyTransport := do
  match ← t.inside? Tag.sequence with
  | [version, recipient, algorithm, key] =>
    return ⟨← version? version, ← RecipientId.ofTlv? recipient,
      ← AlgorithmIdentifier.ofTlv? algorithm, ← key.toOctets?⟩
  | _ => none

end KeyTransport

/-- Whether an element is a sequence that starts with an object identifier, with at most one more
element. -/
def isKeyAttribute (t : Tlv) : Bool :=
  match t.inside? Tag.sequence with
  | some (type :: rest) => type.toOid?.isSome && rest.length ≤ 1
  | _ => false

/-- Whether an element is a time whose year has four digits. -/
def isDate (t : Tlv) : Bool :=
  t.tag == Tag.generalizedTime && (Timestamp.ofTlv? t).isSome

/-- Whether elements are those of a name of a key: its octets, a date and an attribute, the last two of
which may be missing. -/
def isKeyName : List Tlv → Bool
  | [id] => id.toOctets?.isSome
  | [id, more] => id.toOctets?.isSome && (isDate more || isKeyAttribute more)
  | [id, date, other] => id.toOctets?.isSome && isDate date && isKeyAttribute other
  | _ => false

/-- Whether an element is a sequence in which the octets that hold a key come last. -/
def isAgreedKey (t : Tlv) : Bool :=
  match t.inside? Tag.sequence with
  | some [recipient, key] =>
    ((RecipientId.ofTlv? recipient).isSome ||
      (recipient.inside? (Tag.contextConstructed 0)).any isKeyName) && key.toOctets?.isSome
  | _ => false

/-- Whether an element names an originator or holds its public key. -/
def isOriginatorKey (t : Tlv) : Bool :=
  (RecipientId.ofTlv? t).isSome ||
    match t.inside? (Tag.contextConstructed 1) with
    | some [algorithm, key] =>
      (AlgorithmIdentifier.ofTlv? algorithm).isSome && key.toBitString?.isSome
    | _ => false

/-- Whether elements are those of a recipient whose key is agreed on. -/
def isKeyAgreement : List Tlv → Bool
  | version :: originator :: rest =>
    let (material, rest) := Field.take 1 rest
    (version? version).isSome && (originator.explicit? 0).any isOriginatorKey &&
      (Field.optional (fun t => do (← t.explicit? 1).toOctets?) material).isSome &&
      match rest with
      | [algorithm, keys] =>
        (AlgorithmIdentifier.ofTlv? algorithm).isSome &&
          (keys.inside? Tag.sequence).any fun ts => ts.all isAgreedKey
      | _ => false
  | _ => false

/-- Whether elements are those of a recipient with a secret key. -/
def isSecretKey : List Tlv → Bool
  | [version, id, algorithm, key] =>
    (version? version).isSome && (id.inside? Tag.sequence).any isKeyName &&
      (AlgorithmIdentifier.ofTlv? algorithm).isSome && key.toOctets?.isSome
  | _ => false

/-- Reads the algorithm in a context-specific field. -/
def derivation? (t : Tlv) : Option AlgorithmIdentifier := do
  AlgorithmIdentifier.ofTlv? ⟨Tag.sequence, ← t.content? (Tag.contextConstructed 0)⟩

/-- Whether elements are those of a recipient with a password. -/
def isPassword : List Tlv → Bool
  | version :: rest =>
    let (derivation, rest) := Field.take 0 rest
    (version? version).isSome && (Field.optional derivation? derivation).isSome &&
      match rest with
      | [algorithm, key] => (AlgorithmIdentifier.ofTlv? algorithm).isSome && key.toOctets?.isSome
      | _ => false
  | [] => false

/-- Whether elements are an object identifier and a value. -/
def isNamedValue : List Tlv → Bool
  | [type, _] => type.toOid?.isSome
  | _ => false

/-- Whether an element is a recipient of a kind without a key transport key. -/
def isOtherRecipient (t : Tlv) : Bool :=
  match Tlv.readAll? t.content with
  | none => false
  | some ts =>
    (t.tag == Tag.contextConstructed 1 && isKeyAgreement ts) ||
    (t.tag == Tag.contextConstructed 2 && isSecretKey ts) ||
    (t.tag == Tag.contextConstructed 3 && isPassword ts) ||
    (t.tag == Tag.contextConstructed 4 && isNamedValue ts)

/-- A recipient. -/
inductive Recipient where
  /-- One with a key transport key. -/
  | keyTransport (k : KeyTransport)
  | other (t : Tlv)
deriving DecidableEq, Repr

namespace Recipient

def tlv : Recipient → Tlv
  | keyTransport k => k.tlv
  | other t => t

/-- Reads a recipient. Of a kind that cannot be used only the shape is looked at. -/
def ofTlv? (t : Tlv) : Option Recipient :=
  if t.tag = Tag.sequence then (KeyTransport.ofTlv? t).map keyTransport
  else if isOtherRecipient t then some (other t)
  else none

/-- The recipient with a key transport key of the given identifier. -/
def withKey? (id : Octets) : Recipient → Option KeyTransport
  | keyTransport k => if k.recipient = .key id then some k else none
  | other _ => none

end Recipient

end CertAuthority.Recovery
