/-!
# Octets

Octet strings are lists of `UInt8`, so that every encoder and decoder of the library is a function
on lists. This module holds the two readings of an octet string that everything else shares: as an
unsigned number, most significant octet first, and as UTF-8 text.
-/

namespace CertAuthority

/-- An octet string. -/
abbrev Octets := List UInt8

namespace Octets

/-- The number that the octets write in base 256, most significant octet first. -/
def toNat (bs : Octets) : Nat :=
  bs.foldl (fun n b => n * 256 + b.toNat) 0

/-- The low `w` octets of a number, most significant first. -/
def fixed : Nat → Nat → Octets
  | 0, _ => []
  | w + 1, n => UInt8.ofNat (n / Nat.pow 256 w) :: fixed w n

/-- How many octets the shortest form of a number has; zero has none. -/
def byteLength (n : Nat) : Nat :=
  if n = 0 then 0 else n.log2 / 8 + 1

/-- The shortest big-endian form of a number; zero is the empty octet string. -/
def ofNat (n : Nat) : Octets :=
  fixed (byteLength n) n

/-- The UTF-8 form of a text. -/
def ofString (s : String) : Octets :=
  s.toUTF8.data.toList

/-- The text whose UTF-8 form the octets are, if there is one. -/
def toString? (bs : Octets) : Option String :=
  String.fromUTF8? ⟨bs.toArray⟩

/-- A number of given width has as many octets as that. -/
@[simp] theorem length_fixed (w n : Nat) : (fixed w n).length = w := by
  induction w with
  | zero => rfl
  | succ w ih => simp [fixed, ih]

/-- A text is read again from its octets. -/
@[simp] theorem toString?_ofString (s : String) : toString? (ofString s) = some s := by
  simp [toString?, ofString, String.fromUTF8?, String.toUTF8, s.isValidUTF8, String.fromUTF8]

end Octets

end CertAuthority
