import CertAuthority.Rsa.Pkcs1
import CertAuthority.SigningKey

/-!
# Tokens in memory

A soft token holds RSA keys by purpose. It can be taken off line and put back; while it is off line
every use fails and its keys stay as they are.
-/

namespace CertAuthority

/-- A key of a soft token. -/
structure SoftKey where
  key : Rsa.PrivateKey
  algorithm : SignatureAlgorithm
deriving Repr

/-- A token in memory. -/
structure SoftToken where
  keys : Purpose → Option SoftKey := fun _ => none
  /-- Whether the token is on line. -/
  active : Bool := true

namespace SoftToken

/-- The name under which tokens of this kind are known. -/
def provider : String := "caforge-soft"

/-- Installs a key for a purpose, in place of any other. -/
def install (t : SoftToken) (purpose : Purpose) (key : Rsa.PrivateKey)
    (algorithm : SignatureAlgorithm) : SoftToken :=
  { t with keys := fun p => if p = purpose then some ⟨key, algorithm⟩ else t.keys p }

/-- What a failure with a key means for its user. -/
def operation {α : Type} (purpose : Purpose) (r : Except Rsa.Error α) : Except Error α :=
  r.mapError fun e => .tokenOperation purpose e.message

/-- Installs a key from its PEM form. -/
def installPem (t : SoftToken) (purpose : Purpose) (text : Octets)
    (algorithm : SignatureAlgorithm) : Except Error SoftToken := do
  return t.install purpose (← operation purpose (Rsa.PrivateKey.ofPem text)) algorithm

/-- Refuses to make the keys of a token with a modulus that is too short. -/
def checkBits (bits : Nat) : Except Error Unit :=
  operation .certSign (Rsa.PrivateKey.checkBits bits)

/-- Puts a token on line. -/
def activate (t : SoftToken) : SoftToken :=
  { t with active := true }

/-- Takes a token off line; its keys stay. -/
def deactivate (t : SoftToken) : SoftToken :=
  { t with active := false }

/-- The key for a purpose, if it can be used. -/
def usable (t : SoftToken) (purpose : Purpose) : Except Error SoftKey :=
  if t.active then
    match t.keys purpose with
    | some key => .ok key
    | none => .error (.tokenOffline purpose)
  else .error (.tokenOffline purpose)

/-- What others see of a token: its public halves, and what it signs and decrypts. -/
def signingKey (t : SoftToken) : SigningKey where
  sign purpose message := do
    let k ← t.usable purpose
    operation purpose (k.key.sign k.algorithm message)
  publicKey purpose := do
    return (← t.usable purpose).key.publicKey.info
  decrypt purpose ciphertext := do
    operation purpose ((← t.usable purpose).key.decrypt ciphertext)
  algorithm purpose := do
    return (← t.usable purpose).algorithm
  provider := provider

end SoftToken

end CertAuthority
