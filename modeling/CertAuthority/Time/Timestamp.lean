import CertAuthority.Der.Value
import CertAuthority.Error
import CertAuthority.Time.Civil

/-!
# Times in certificates

Times before 2050 are written with two digits of the year, later ones with four. The reader accepts
both forms for any year that they can write, but nothing before 1970.
-/

namespace CertAuthority

open Der
open Civil (twoDigits?)

/-- The last second that has a form, at the end of the year 9999. -/
def lastSecond : Nat := 253402300799

/-- A time that has a form. -/
structure Timestamp where
  /-- The seconds since the start of 1970. -/
  seconds : Nat
  le_last : seconds ≤ lastSecond
deriving DecidableEq, Repr

namespace Timestamp

/-- The first second of 2050, from which on years have four digits. -/
def utcTimeLimit : Nat := 2524608000

/-- The time of a second, if it has a form. -/
def ofSeconds (seconds : Nat) : Except Error Timestamp :=
  if h : seconds ≤ lastSecond then .ok ⟨seconds, h⟩ else .error .der

/-- The digits of a number, as many as are asked for. -/
def digits (width n : Nat) : Octets :=
  (List.range width).map fun i => UInt8.ofNat (48 + n / Nat.pow 10 (width - 1 - i) % 10)

/-- The digits of a calendar time after its year, with the letter of universal time. -/
def afterYear (c : Civil) : Octets :=
  digits 2 c.month ++ digits 2 c.day ++ digits 2 c.hour ++ digits 2 c.minute ++ digits 2 c.second ++
    [90]

/-- The DER form of a second whose calendar time is given. -/
def form (seconds : Nat) (c : Civil) : Tlv :=
  if seconds < utcTimeLimit then ⟨Tag.utcTime, digits 2 (c.year % 100) ++ afterYear c⟩
  else ⟨Tag.generalizedTime, digits 4 c.year ++ afterYear c⟩

/-- The DER form of a time. -/
def tlv (t : Timestamp) : Tlv :=
  form t.seconds (Civil.ofSeconds t.seconds)

/-- Reads the part of a calendar time after its year. -/
def read? (year : Nat) : Octets → Option Timestamp
  | [m1, m2, d1, d2, h1, h2, n1, n2, s1, s2, 90] => do
    let c : Civil := {
      year, month := ← twoDigits? m1 m2, day := ← twoDigits? d1 d2, hour := ← twoDigits? h1 h2,
      minute := ← twoDigits? n1 n2, second := ← twoDigits? s1 s2 }
    if h : c.isValid ∧ c.toSeconds ≤ lastSecond then some ⟨c.toSeconds, h.2⟩ else none
  | _ => none

/-- Reads a time in either form. -/
def ofTlv? (t : Tlv) : Option Timestamp :=
  if t.tag = Tag.utcTime then
    match t.content with
    | y1 :: y2 :: rest => do
      let y ← twoDigits? y1 y2
      read? (if 50 ≤ y then 1900 + y else 2000 + y) rest
    | _ => none
  else if t.tag = Tag.generalizedTime then
    match t.content with
    | y1 :: y2 :: y3 :: y4 :: rest => do
      read? ((← twoDigits? y1 y2) * 100 + (← twoDigits? y3 y4)) rest
    | _ => none
  else none

end Timestamp

end CertAuthority
