import CertAuthority.Octets

/-!
# Texts in UTF-16

A BMPString holds a text as units of sixteen bits, most significant octet first. A character beyond
the first 65536 takes two units.
-/

namespace CertAuthority.Text

/-- The units of a character. A character beyond the first 65536 has one from each half of the surrogates. -/
def utf16Units (c : Char) : List Nat :=
  let n := c.toNat
  if n < 0x10000 then [n]
  else [0xD800 + (n - 0x10000) / 0x400, 0xDC00 + (n - 0x10000) % 0x400]

/-- The octets of the units of all characters of a text. -/
def utf16Encode (s : String) : Octets :=
  s.toList.flatMap fun c => (utf16Units c).flatMap (Octets.fixed 2)

/-- The units that octets hold, two octets each. -/
def unitsOf? : Octets → Option (List Nat)
  | [] => some []
  | [_] => none
  | a :: b :: rest => (unitsOf? rest).map ((a.toNat * 256 + b.toNat) :: ·)

/-- The characters that units stand for. A unit from the surrogates that has not its other half next to it stands for
none. -/
def charactersOf? : List Nat → Option (List Char)
  | [] => some []
  | high :: rest =>
    if 0xD800 ≤ high && high < 0xDC00 then
      match rest with
      | low :: rest =>
        if 0xDC00 ≤ low && low < 0xE000 then
          (charactersOf? rest).map
            (Char.ofNat (0x10000 + (high - 0xD800) * 0x400 + (low - 0xDC00)) :: ·)
        else none
      | [] => none
    else if 0xDC00 ≤ high && high < 0xE000 then none
    else (charactersOf? rest).map (Char.ofNat high :: ·)

/-- The text that octets hold. -/
def utf16Decode? (bs : Octets) : Option String := do
  return String.ofList (← charactersOf? (← unitsOf? bs))

end CertAuthority.Text
