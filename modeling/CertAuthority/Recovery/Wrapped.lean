import CertAuthority.Cipher.Cbc
import CertAuthority.Recovery.Envelope
import CertAuthority.Recovery.KeyPair
import CertAuthority.Rsa.Pkcs1
import CertAuthority.SigningKey

/-!
# Wrapped key pairs

A key pair is wrapped for the authority: it is encrypted under a content key, and the content key is
encrypted for the authority's transport key, which is named by its identifier. Unwrapping finds the
recipient of that name and undoes both. A token that is off line is reported as such; whatever else
fails is a failure of the recovery.
-/

namespace CertAuthority

open Der Cipher Recovery

namespace Recovery

/-- What is drawn to wrap a key pair. -/
structure Draw where
  contentKey : Aes.Key
  /-- The block before the first one. -/
  first : Block
  /-- The padding of the transported content key. -/
  padding : Octets
deriving DecidableEq, Repr

/-- The version of envelopes whose recipients are named by the identifiers of their keys. -/
def v2 : Nat := 2

/-- The envelope of an encrypted key pair for one recipient. -/
def envelope (id encryptedKey : Octets) (first : Block) (octets : Octets) : Envelope where
  version := v2
  originator := none
  recipients :=
    [.keyTransport ⟨v2, .key id, .withNull Oid.rsaEncryption, encryptedKey⟩]
  content := ⟨Oid.data, ⟨Oid.aes256Cbc, some ⟨.ofOctets first.octets, rfl⟩⟩, some octets⟩
  attributes := none

/-- The octets of a finished structure, which must not be too long. -/
def encoded (t : Tlv) : Except Error Octets :=
  t.encoded.mapError fun e => .recovery ("key recovery encoding: " ++ e.message)

/-- A value, or the failure of the recovery for a reason. -/
def orFail {α : Type} (details : String) : Option α → Except Error α
  | some a => .ok a
  | none => .error (.recovery details)

/-- The envelope in the octets of a wrapped key pair. -/
def envelopeOf (wrapped : Octets) : Except Error Envelope := do
  let typed ← orFail "content info: malformed value" (TypedContent.decode? wrapped)
  if typed.type ≠ Oid.envelopedData then
    throw (.recovery ("unexpected content type " ++ typed.type.text))
  orFail "enveloped data: malformed value" (Envelope.ofTlv? typed.content)

/-- The key of the content, which the holder of the transport key decrypts. -/
def contentKeyOf (key : SigningKey) (k : KeyTransport) : Except Error Aes.Key := do
  if k.algorithm.algorithm ≠ Oid.rsaEncryption then
    throw (.recovery ("unsupported key encryption algorithm " ++ k.algorithm.algorithm.text))
  let octets ← (key.decrypt .keyEncrypt k.encryptedKey).mapError fun
    | .tokenOffline purpose => .tokenOffline purpose
    | e => .recovery ("content key transport: " ++ e.message)
  orFail "content key has the wrong size" (Aes.Key.ofOctets? octets)

/-- The content of an envelope under its key. -/
def decryptContent (contentKey : Aes.Key) (c : EncryptedContent) : Except Error Octets := do
  if c.algorithm.algorithm ≠ Oid.aes256Cbc then
    throw (.recovery ("unsupported content encryption algorithm " ++ c.algorithm.algorithm.text))
  let parameters ← orFail "missing content encryption IV" c.algorithm.parameters
  let first ← orFail "content encryption IV: malformed value" parameters.tlv.toOctets?
  let octets ← orFail "missing encrypted content" c.octets
  let first ← orFail "content encryption IV has the wrong size" (Block.ofOctets? first)
  orFail "content decryption failed" (Cbc.decrypt? contentKey first octets)

end Recovery

namespace KeyPair

/-- Wraps a key pair for the transport key of an authority. -/
def wrap (p : KeyPair) (key : SigningKey) (draw : Draw) : Except Error Octets := do
  let recipient ← key.publicKey .keyEncrypt
  let transport ← (Rsa.PublicKey.ofInfo recipient).mapError fun e =>
    .recovery ("key transport key: " ++ e.message)
  let octets ← encoded p.tlv
  let encryptedKey ← (transport.encrypt draw.padding draw.contentKey.octets).mapError fun e =>
    .recovery ("content key transport: " ++ e.message)
  let e := envelope recipient.keyIdentifier encryptedKey draw.first
    (Cbc.encrypt draw.contentKey draw.first octets)
  encoded (TypedContent.tlv ⟨Oid.envelopedData, e.tlv⟩)

/-- Opens a wrapped key pair with the transport key of an authority. -/
def unwrap (wrapped : Octets) (key : SigningKey) (shortest : Nat := shortestOid) :
    Except Error KeyPair := do
  let id := (← key.publicKey .keyEncrypt).keyIdentifier
  let e ← envelopeOf wrapped
  let recipient ← orFail "no recipient matches the key encryption key"
    (e.recipients.findSome? (Recipient.withKey? id))
  let contentKey ← contentKeyOf key recipient
  let octets ← decryptContent contentKey e.content
  orFail "key pair: malformed value" (KeyPair.decode? octets shortest)

end KeyPair

end CertAuthority
