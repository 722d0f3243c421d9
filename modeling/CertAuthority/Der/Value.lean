import CertAuthority.Der.Tlv
import CertAuthority.Oid

/-!
# Simple DER values

The universal types that need no structure of their own: booleans, integers, bit and octet strings,
object identifiers and texts. Each has a form as an element and a strict reading of elements.
-/

namespace CertAuthority.Der

/-- The number of octets of the shortest two's complement form whose magnitude bits are those of
`n`: one bit more than `n` needs, rounded up to octets. -/
def signedWidth (n : Nat) : Nat :=
  if n = 0 then 1 else (n.log2 + 1) / 8 + 1

/-- The shortest two's complement form of an integer. -/
def intContent : Int → Octets
  | .ofNat n => Octets.fixed (signedWidth n) n
  | .negSucc n => Octets.fixed (signedWidth n) (Nat.pow 256 (signedWidth n) - 1 - n)

/-- The integer that two's complement octets stand for. -/
def signedValue : Octets → Int
  | [] => 0
  | b :: rest =>
    if b < 128 then (Octets.toNat (b :: rest) : Int)
    else (Octets.toNat (b :: rest) : Int) - (Nat.pow 256 (rest.length + 1) : Int)

/-- Reads the shortest two's complement form of an integer. -/
def contentInt? (bs : Octets) : Option Int :=
  let n := signedValue bs
  if intContent n = bs then some n else none

/-- A string of bits: octets of which the last may have unused low bits. -/
structure BitString where
  /-- How many low bits of the last octet are unused. -/
  unused : UInt8
  octets : Octets
  /-- At most seven bits are unused, and none if there is no octet. -/
  unused_le : (unused < 8 && (unused == 0 || !octets.isEmpty)) = true := by rfl
deriving DecidableEq, Repr

namespace BitString

/-- The bits of whole octets. -/
def ofOctets (octets : Octets) : BitString :=
  { unused := 0, octets, unused_le := by simp }

/-- The content octets: how many bits of the last octet are not used, and the octets. -/
def content (b : BitString) : Octets :=
  b.unused :: b.octets

/-- Reads content octets; at most seven bits may be unused, and none where there is no octet. -/
def ofContent? : Octets → Option BitString
  | [] => none
  | unused :: octets =>
    if h : (unused < 8 && (unused == 0 || !octets.isEmpty)) = true then
      some { unused, octets, unused_le := h }
    else none

end BitString

/-- How many octets the content of an identifier has at least, where the engine reads one. The
identifiers that it writes may be shorter. -/
def shortestOid : Nat := 3

namespace Tlv

def ofBool (b : Bool) : Tlv :=
  ⟨Tag.boolean, [if b then 0xFF else 0]⟩

def toBool? (t : Tlv) : Option Bool :=
  if t = ofBool true then some true
  else if t = ofBool false then some false
  else none

/-- The INTEGER of a number in its shortest form. -/
def ofInt (n : Int) : Tlv :=
  ⟨Tag.integer, intContent n⟩

def toInt? (t : Tlv) : Option Int := do
  contentInt? (← t.content? Tag.integer)

/-- Reads an INTEGER that is not negative. -/
def toNat? (t : Tlv) : Option Nat := do
  match ← t.toInt? with
  | .ofNat n => some n
  | .negSucc _ => none

def ofBitString (b : BitString) : Tlv :=
  ⟨Tag.bitString, b.content⟩

def toBitString? (t : Tlv) : Option BitString := do
  BitString.ofContent? (← t.content? Tag.bitString)

def ofOctets (bs : Octets) : Tlv :=
  ⟨Tag.octetString, bs⟩

def toOctets? (t : Tlv) : Option Octets :=
  t.content? Tag.octetString

def null : Tlv :=
  ⟨Tag.null, []⟩

def ofOid (oid : Oid) : Tlv :=
  ⟨Tag.oid, oid.octets⟩

/-- Reads an OBJECT IDENTIFIER that is not too short. -/
def toOid? (t : Tlv) (shortest : Nat := shortestOid) : Option Oid := do
  let bs ← t.content? Tag.oid
  if bs.length < shortest then none else Oid.ofOctets? bs

/-- A text of one of the string types whose octets are UTF-8 or a part of it. -/
def ofText (tag : UInt8) (s : String) : Tlv :=
  ⟨tag, Octets.ofString s⟩

end Tlv

end CertAuthority.Der
