import CertAuthority.Octets

/-!
# Base 64

Three octets are written as four characters of the standard alphabet; a shorter group at the end is
filled with padding. Only that form is read: padding is required and unused bits are zero.
-/

namespace CertAuthority.Base64

/-- The character of the alphabet for a number below 64. -/
def character (n : Nat) : UInt8 :=
  if n < 26 then UInt8.ofNat (65 + n)
  else if n < 52 then UInt8.ofNat (97 + (n - 26))
  else if n < 62 then UInt8.ofNat (48 + (n - 52))
  else if n = 62 then 43
  else 47

/-- The number that a character of the alphabet stands for. -/
def digit? (b : UInt8) : Option Nat :=
  if 65 ≤ b && b ≤ 90 then some (b.toNat - 65)
  else if 97 ≤ b && b ≤ 122 then some (b.toNat - 97 + 26)
  else if 48 ≤ b && b ≤ 57 then some (b.toNat - 48 + 52)
  else if b = 43 then some 62
  else if b = 47 then some 63
  else none

/-- The character that fills the last group up. -/
def pad : UInt8 := 61

/-- The base 64 of octets, in groups of four characters. -/
def encode : Octets → Octets
  | [] => []
  | [a] =>
    let n := a.toNat
    [character (n / 4), character (n % 4 * 16), pad, pad]
  | [a, b] =>
    let n := a.toNat * 256 + b.toNat
    [character (n / 1024), character (n / 16 % 64), character (n % 16 * 4), pad]
  | a :: b :: c :: rest =>
    let n := (a.toNat * 256 + b.toNat) * 256 + c.toNat
    character (n / 262144) :: character (n / 4096 % 64) :: character (n / 64 % 64) ::
      character (n % 64) :: encode rest

/-- Reads a last group with two padding characters. -/
def lastOne? (a b : UInt8) : Option Octets := do
  let x ← digit? a
  let y ← digit? b
  if y % 16 = 0 then some [UInt8.ofNat (x * 4 + y / 16)] else none

/-- Reads a last group with one padding character. -/
def lastTwo? (a b c : UInt8) : Option Octets := do
  let x ← digit? a
  let y ← digit? b
  let z ← digit? c
  let n := (x * 64 + y) * 64 + z
  if z % 4 = 0 then some [UInt8.ofNat (n / 1024), UInt8.ofNat (n / 4)] else none

/-- Reads base 64 in its one form: full groups, with nothing in the bits that the last one does not use. -/
def decode? : Octets → Option Octets
  | [] => some []
  | a :: b :: c :: d :: rest =>
    if rest.isEmpty && d == pad then
      if c = pad then lastOne? a b else lastTwo? a b c
    else do
      let x ← digit? a
      let y ← digit? b
      let z ← digit? c
      let w ← digit? d
      let n := ((x * 64 + y) * 64 + z) * 64 + w
      let bs ← decode? rest
      return UInt8.ofNat (n / 65536) :: UInt8.ofNat (n / 256) :: UInt8.ofNat n :: bs
  | _ => none

end CertAuthority.Base64
