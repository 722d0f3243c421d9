import CertAuthority.Rsa.PrivateKey
import CertAuthority.SignatureAlgorithm

/-!
# Signatures and key transport

PKCS #1 version 1.5: a message or its hash is padded to the size of the modulus and raised to the
private or the public exponent. Signing and decrypting check their result with the public exponent,
so a key that does not invert fails instead of answering wrongly.
-/

namespace CertAuthority.Rsa

/-- The octets that are signed for a message: the type octets, padding and the hash. There are none
if the size leaves fewer than eight octets of padding. -/
def signaturePadded? (size : Nat) (algorithm : SignatureAlgorithm) (message : Octets) :
    Option Octets :=
  let digest := algorithm.digestInfo message
  if size < digest.length + 11 then none
  else some ([0, 1] ++ List.replicate (size - digest.length - 3) 0xFF ++ 0 :: digest)

/-- As many padding octets as are asked for, none of them zero: each is the next of the drawn ones,
or one if that is zero or there is none. -/
def nonzero : Nat → Octets → Octets
  | 0, _ => []
  | n + 1, [] => 1 :: nonzero n []
  | n + 1, b :: rest => (if b = 0 then 1 else b) :: nonzero n rest

/-- The octets that are encrypted for a message: the type octets, drawn padding and the message. -/
def transportPadded? (size : Nat) (drawn message : Octets) : Option Octets :=
  if size < message.length + 11 then none
  else some ([0, 2] ++ nonzero (size - message.length - 3) drawn ++ 0 :: message)

/-- The message in padded octets that were decrypted. At least eight octets of padding come before
it. -/
def transportMessage? : Octets → Option Octets
  | 0 :: 2 :: rest =>
    let padding := rest.takeWhile (· != 0)
    if padding.length < 8 then none
    else
      match rest.drop padding.length with
      | _ :: message => some message
      | [] => none
  | _ => none

namespace PublicKey

/-- The power by the public exponent. -/
def apply (k : PublicKey) (n : Nat) : Nat :=
  powMod n publicExponent k.modulus

/-- Whether octets are a signature of a message. -/
def verify (k : PublicKey) (algorithm : SignatureAlgorithm) (message signature : Octets) : Bool :=
  let s := Octets.toNat signature
  signature.length = k.size && s < k.modulus &&
    signaturePadded? k.size algorithm message == some (Octets.fixed k.size (k.apply s))

/-- Encrypts a short message with drawn padding. -/
def encrypt (k : PublicKey) (drawn message : Octets) : Except Error Octets :=
  match transportPadded? k.size drawn message with
  | none => .error .transport
  | some padded => .ok (Octets.fixed k.size (k.apply (Octets.toNat padded)))

end PublicKey

namespace PrivateKey

/-- The number whose power by the public exponent is the given one. -/
def invert? (k : PrivateKey) (n : Nat) : Option Nat :=
  let m := powMod n k.exponent k.modulus
  if k.publicKey.apply m = n then some m else none

/-- Signs the hash of a message, and checks the signature that was made. -/
def sign (k : PrivateKey) (algorithm : SignatureAlgorithm) (message : Octets) :
    Except Error Octets :=
  match signaturePadded? k.publicKey.size algorithm message with
  | none => .error .signature
  | some padded =>
    match k.invert? (Octets.toNat padded) with
    | none => .error .signature
    | some s => .ok (Octets.fixed k.publicKey.size s)

/-- Decrypts a message. The ciphertext is a number below the modulus; zeros in front of it do not
matter. -/
def decrypt (k : PrivateKey) (ciphertext : Octets) : Except Error Octets :=
  let c := Octets.toNat ciphertext
  let message? := do
    if k.modulus ≤ c then none
    transportMessage? (Octets.fixed k.publicKey.size (← k.invert? c))
  match message? with
  | none => .error .transport
  | some message => .ok message

end PrivateKey

end CertAuthority.Rsa
