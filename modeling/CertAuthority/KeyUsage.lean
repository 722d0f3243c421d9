import CertAuthority.Der.Value

/-!
# Key usage

What a certified key may be used for is a set of nine bits. The set is written as a BIT STRING in
which the first bit is the highest bit of the first octet and zeros at the end are left out.
-/

namespace CertAuthority

open Der

/-- One use of a key. -/
inductive KeyUsageBit where
  /-- Signatures other than those on certificates and revocation lists. -/
  | digitalSignature
  /-- Signatures that their maker must not be able to deny. -/
  | nonRepudiation
  | keyEncipherment
  | dataEncipherment
  | keyAgreement
  | keyCertSign
  | crlSign
  | encipherOnly
  | decipherOnly
deriving DecidableEq, Repr

namespace KeyUsageBit

/-- The bits with their names in configuration texts, first bit first. -/
def names : List (String × KeyUsageBit) :=
  [("digital_signature", digitalSignature), ("non_repudiation", nonRepudiation),
   ("key_encipherment", keyEncipherment), ("data_encipherment", dataEncipherment),
   ("key_agreement", keyAgreement), ("key_cert_sign", keyCertSign), ("crl_sign", crlSign),
   ("encipher_only", encipherOnly), ("decipher_only", decipherOnly)]

/-- All bits, first bit first. -/
def all : List KeyUsageBit :=
  names.map Prod.snd

end KeyUsageBit

/-- A set of uses, given by the bits in it; order and repetition mean nothing. -/
abbrev KeyUsage := List KeyUsageBit

namespace KeyUsage

/-- Which bits are in a set, first bit first. -/
def flags (bits : KeyUsage) : List Bool :=
  KeyUsageBit.all.map bits.contains

/-- The number whose bit `n` says whether the bit number `n` is in a set. -/
def mask (bits : KeyUsage) : Nat :=
  bits.flags.foldr (fun b n => 2 * n + b.toNat) 0

/-- Flags without those that are false at the end. -/
def dropTrailing : List Bool → List Bool
  | [] => []
  | b :: rest =>
    match dropTrailing rest with
    | [] => if b then [true] else []
    | tail => b :: tail

/-- The octet whose highest bits are the first eight flags. -/
def octet (flags : List Bool) : UInt8 :=
  UInt8.ofNat ((List.range 8).foldl (fun n i => if flags.getD i false then n + 128 >>> i else n) 0)

/-- The octets that flags fill; at most sixteen flags are used. -/
def octets (flags : List Bool) : Octets :=
  if flags.length ≤ 8 then [octet flags] else [octet flags, octet (flags.drop 8)]

/-- The content of the BIT STRING: how many bits of the last octet are not used, and the octets. -/
def content (bits : KeyUsage) : Octets :=
  match dropTrailing bits.flags with
  | [] => [0]
  | flags => UInt8.ofNat ((16 - flags.length) % 8) :: octets flags

/-- The DER form, in which the bits that are not set are left out at the end. -/
def tlv (bits : KeyUsage) : Tlv :=
  ⟨Tag.bitString, bits.content⟩

/-- The set in which a list of flags puts the bits. -/
def ofFlags (flags : List Bool) : KeyUsage :=
  (KeyUsageBit.all.zip flags).filterMap fun p => if p.2 then some p.1 else none

/-- The bits of octets, highest first. -/
def flagsOf (bs : Octets) : List Bool :=
  bs.flatMap fun b => (List.range 8).map fun i => b.toNat.testBit (7 - i)

/-- Reads the DER form of a set, which must be the shortest. -/
def ofTlv? (t : Tlv) : Option KeyUsage := do
  let b ← t.toBitString?
  let bits := ofFlags (flagsOf b.octets)
  if tlv bits = t then some bits else none

end KeyUsage

end CertAuthority
