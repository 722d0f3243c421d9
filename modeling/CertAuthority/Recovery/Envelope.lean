import CertAuthority.Certificate.Basic
import CertAuthority.Recovery.Recipient

/-!
# Enveloped data

An envelope holds a content that is encrypted under a content key, and the content key for its
recipients. Around it stands an element that says what kind of content it is.
-/

namespace CertAuthority.Recovery

open Der

/-- A content and its type. -/
structure TypedContent where
  type : Oid
  content : Tlv
deriving DecidableEq, Repr

namespace TypedContent

def tlv (c : TypedContent) : Tlv :=
  .sequence [.ofOid c.type, .explicit 0 c.content]

/-- Reads a content with its type; what the type says of the content is not looked at. -/
def ofTlv? (t : Tlv) : Option TypedContent := do
  match ← t.inside? Tag.sequence with
  | type :: rest =>
    let (content, rest) := Field.take 0 rest
    if !rest.isEmpty then none
    return ⟨← type.toOid?, ← (← content).explicit? 0⟩
  | [] => none

def decode? (bs : Octets) : Option TypedContent := do
  ofTlv? (← Tlv.decode? bs)

end TypedContent

/-- An encrypted content. -/
structure EncryptedContent where
  type : Oid
  algorithm : AlgorithmIdentifier
  octets : Option Octets
deriving DecidableEq, Repr

namespace EncryptedContent

def tlv (c : EncryptedContent) : Tlv :=
  .sequence ([.ofOid c.type, c.algorithm.tlv] ++ c.octets.toList.map fun bs => ⟨Tag.context 0, bs⟩)

/-- Reads an encrypted content, which may be left out of the envelope. -/
def ofTlv? (t : Tlv) : Option EncryptedContent := do
  match ← t.inside? Tag.sequence with
  | type :: algorithm :: rest =>
    let (octets, rest) := Field.take 0 rest
    if !rest.isEmpty then none
    return ⟨← type.toOid?, ← AlgorithmIdentifier.ofTlv? algorithm,
      ← Field.optional (Tlv.content? (Tag.context 0)) octets⟩
  | _ => none

end EncryptedContent

/-- Whether an element is a set of distinct elements that all pass a test. -/
def isSetOf (tag : UInt8) (test : Tlv → Bool) (t : Tlv) : Bool :=
  match t.inside? tag with
  | none => false
  | some ts => (Tlv.ascending? ts).isSome && ts.all test

/-- Whether an element holds certificates and revocation lists of an originator. -/
def isOriginator (t : Tlv) : Bool :=
  match t.inside? (Tag.contextConstructed 0) with
  | none => false
  | some ts =>
    let (certificates, rest) := Field.take 0 ts
    let (lists, rest) := Field.take 1 rest
    certificates.all (isSetOf (Tag.contextConstructed 0) fun c =>
      (Certificate.ofTlv? c).isSome ||
        ((c.inside? (Tag.contextConstructed 3)).map isNamedValue) == some true) &&
      lists.all (isSetOf (Tag.contextConstructed 1) fun _ => true) && rest.isEmpty

/-- Whether an element is an attribute: an object identifier and a set of values. -/
def isAttribute (t : Tlv) : Bool :=
  match t.inside? Tag.sequence with
  | some [type, values] => type.toOid?.isSome && isSetOf Tag.set (fun _ => true) values
  | _ => false

/-- An envelope. -/
structure Envelope where
  version : Nat
  /-- What is known about the originator. -/
  originator : Option Tlv
  /-- The recipients, in ascending order of their DER forms. -/
  recipients : List Recipient
  content : EncryptedContent
  attributes : Option Tlv
deriving DecidableEq, Repr

namespace Envelope

def tlv (e : Envelope) : Tlv :=
  .sequence ([.ofInt e.version] ++ e.originator.toList ++
    [.set (e.recipients.map Recipient.tlv), e.content.tlv] ++ e.attributes.toList)

/-- Reads the recipients of an envelope; they are put in order, but no two may be equal. -/
def recipientsOfTlv? (t : Tlv) : Option (List Recipient) := do
  Tlv.ascendingBy? Recipient.tlv (← (← t.inside? Tag.set).mapM Recipient.ofTlv?)

/-- Reads an envelope. Parts that nothing is taken from must still have their shape. -/
def ofTlv? (t : Tlv) : Option Envelope := do
  match ← t.inside? Tag.sequence with
  | version :: rest =>
    let (originator, rest) := Field.take 0 rest
    if !originator.all isOriginator then none
    match rest with
    | recipients :: content :: rest =>
      let (attributes, rest) := Field.take 1 rest
      if !attributes.all (isSetOf (Tag.contextConstructed 1) isAttribute) then none
      if !rest.isEmpty then none
      return ⟨← version? version, originator, ← recipientsOfTlv? recipients,
        ← EncryptedContent.ofTlv? content, attributes⟩
    | _ => none
  | [] => none

end Envelope

end CertAuthority.Recovery
