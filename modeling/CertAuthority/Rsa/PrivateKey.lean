import CertAuthority.Rsa.PublicKey

/-!
# RSA private keys

A private key holds the two primes and the private exponent beside the modulus, and a proof that they
fit together. What can be computed from these is written with the key but not believed when it is
read.
-/

namespace CertAuthority.Rsa

open Der

/-- The private exponent undoes the public one modulo a prime. -/
abbrev Inverts (d prime e : Nat) : Prop :=
  d * e % (prime - 1) = 1

/-- A private key. -/
structure PrivateKey where
  modulus : Nat
  exponent : Nat
  prime1 : Nat
  prime2 : Nat
  longEnough : minModulusBits ≤ bitLength modulus
  /-- The primes are those of the modulus. -/
  product : prime1 * prime2 = modulus
  /-- The exponents undo each other modulo the first prime. -/
  inverts1 : Inverts exponent prime1 publicExponent
  /-- The exponents undo each other modulo the second prime. -/
  inverts2 : Inverts exponent prime2 publicExponent
deriving Repr

namespace PrivateKey

/-- The public half of a key. -/
def publicKey (k : PrivateKey) : PublicKey :=
  ⟨k.modulus, k.longEnough⟩

/-- Refuses the making of a key with a modulus that is too short. -/
def checkBits (bits : Nat) : Except Error Unit :=
  if bits < minModulusBits then .error (.modulusTooSmall bits) else .ok ()

/-- The numbers that a private key is read from. -/
structure Parts where
  modulus : Nat
  publicExponent : Nat
  exponent : Nat
  prime1 : Nat
  prime2 : Nat
deriving DecidableEq, Repr

/-- Reads the numbers of a key of two primes. The last three of them only speed up computations and
are not looked at, but must be numbers. -/
def Parts.ofTlv? (t : Tlv) : Option Parts := do
  let numbers ← (← t.inside? Tag.sequence).mapM Tlv.toNat?
  match numbers with
  | [0, n, e, d, p, q, _, _, _] => return ⟨n, e, d, p, q⟩
  | _ => none

/-- Whether an element is a field that later versions of the private key structure may add. -/
def isLaterField (t : Tlv) : Bool :=
  0xA0 ≤ t.tag && t.tag < 0xC0 && (Tlv.decode? t.content).isSome

/-- Whether the elements after the key are fit for a version: attributes are passed over, the public
half follows exactly in the second version. -/
def fitsVersion (version : Nat) (rest : List Tlv) : Bool :=
  let rest := rest.dropWhile fun t => t.tag == 0x80 || t.tag == 0xA0
  match rest with
  | [] => version == 0
  | t :: later =>
    if t.tag = 0x81 then
      version == 1 && (BitString.ofContent? t.content).isSome && later.all isLaterField
    else version == 0 && t.tag != 0xA1 && rest.all isLaterField

/-- The numbers in the DER octets of a private key. -/
def parts? (bs : Octets) : Option Parts := do
  match ← (← Tlv.decode? bs).inside? Tag.sequence with
  | version :: algorithm :: key :: rest =>
    let v ← version.toNat?
    if !fitsVersion v rest then none
    if (← AlgorithmIdentifier.ofTlv? algorithm) ≠ .withNull Oid.rsaEncryption then none
    Parts.ofTlv? (← Tlv.decode? (← key.toOctets?))
  | _ => none

/-- Reads a private key from its DER octets, if its numbers fit together. -/
def decode (bs : Octets) : Except Error PrivateKey :=
  match parts? bs with
  | none => .error .malformedPrivateKey
  | some ⟨n, e, d, p, q⟩ =>
    if h : 2 ≤ e ∧ e < exponentBound ∧ p * q = n ∧ Inverts d p e ∧ Inverts d q e then
      if hn : minModulusBits ≤ bitLength n then
        if he : e = publicExponent then
          .ok ⟨n, d, p, q, hn, h.2.2.1, he ▸ h.2.2.2.1, he ▸ h.2.2.2.2⟩
        else .error .unsupportedExponent
      else .error (.modulusTooSmall (bitLength n))
    else .error .malformedPrivateKey

/-- Reads a private key from its PEM form. -/
def ofPem (text : Octets) : Except Error PrivateKey := do
  decode (← (Pem.decodeLabeled Pem.privateKey text).mapError .pem)

/-- The octets of a private key; there are none if the primes have a common factor. -/
def encode (k : PrivateKey) : Except Error Octets :=
  match inverse? k.prime2 k.prime1 with
  | none => .error .malformedPrivateKey
  | some coefficient =>
    let numbers : List Nat :=
      [0, k.modulus, publicExponent, k.exponent, k.prime1, k.prime2, k.exponent % (k.prime1 - 1),
       k.exponent % (k.prime2 - 1), coefficient]
    .ok (Tlv.sequence [.ofInt 0, (AlgorithmIdentifier.withNull Oid.rsaEncryption).tlv,
      .ofOctets (Tlv.sequence (numbers.map fun (n : Nat) => Tlv.ofInt n)).encode]).encode

/-- The PEM form of a private key, if it can be written. -/
def pem (k : PrivateKey) : Except Error Octets := do
  return Pem.encode Pem.privateKey (← k.encode)

end PrivateKey

end CertAuthority.Rsa
