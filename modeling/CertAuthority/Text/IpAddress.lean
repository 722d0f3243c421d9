import CertAuthority.Text.Escaped
import CertAuthority.Text.Hex

/-!
# Internet addresses

The textual forms of addresses: four decimal numbers for version 4; for version 6 eight groups of
hexadecimal digits, where `::` stands for at least one group of zeros and the last two groups may be
written as a version 4 address. There are no zones, brackets, signs or lengths.
-/

namespace CertAuthority.Text

/-- The number that digits write in a base. -/
def digitsValue (base : Nat) (digits : List Nat) : Nat :=
  digits.foldl (fun n d => n * base + d) 0

/-- Reads a decimal number below 256 without leading zeros. -/
def ipv4Part? (cs : List Char) : Option UInt8 :=
  if cs.all Char.isDigit then
    let n := digitsValue 10 (cs.map fun c => c.toNat - '0'.toNat)
    if cs.length = 0 || 3 < cs.length || 255 < n || (1 < cs.length && cs.head? == some '0') then none
    else some (UInt8.ofNat n)
  else none

/-- Reads the four decimal numbers of an address. -/
def ipv4? (cs : List Char) : Option Octets :=
  let parts := cut '.' cs
  if parts.length = 4 then parts.mapM ipv4Part? else none

/-- Reads one group of an address: up to four digits of base 16. -/
def ipv6Group? (cs : List Char) : Option Octets := do
  let digits ← cs.mapM hexDigit?
  if digits.isEmpty || 4 < digits.length then none
  else return Octets.fixed 2 (digitsValue 16 digits)

/-- Reads groups between colons. The flag says whether the last two groups may be written as a
version 4 address. -/
def ipv6Groups? (allowIpv4 : Bool) : List (List Char) → Option Octets
  | [] => some []
  | [last] => if allowIpv4 && last.contains '.' then ipv4? last else ipv6Group? last
  | group :: rest => do
    let high ← ipv6Group? group
    return high ++ (← ipv6Groups? allowIpv4 rest)

/-- The texts before and after the first double colon. -/
def cutDoubleColon : List Char → Option (List Char × List Char)
  | ':' :: ':' :: rest => some ([], rest)
  | c :: rest => (cutDoubleColon rest).map fun p => (c :: p.1, p.2)
  | [] => none

/-- Reads the groups on one side of a double colon, where nothing stands for no group. -/
def ipv6Side? (allowIpv4 : Bool) (cs : List Char) : Option Octets :=
  if cs.isEmpty then some [] else ipv6Groups? allowIpv4 (cut ':' cs)

/-- Reads an address of eight groups, some of which may be left out in one place. -/
def ipv6? (cs : List Char) : Option Octets :=
  match cutDoubleColon cs with
  | none => do
    let bs ← ipv6Groups? true (cut ':' cs)
    if bs.length = 16 then some bs else none
  | some (left, right) => do
    let high ← ipv6Side? false left
    let low ← ipv6Side? true right
    if high.length + low.length ≤ 14 then
      return high ++ List.replicate (16 - (high.length + low.length)) 0 ++ low
    else none

/-- Reads an address: four octets for version 4 and sixteen for version 6. -/
def ipAddress? (s : String) : Option Octets :=
  ipv4? s.toList <|> ipv6? s.toList

end CertAuthority.Text
