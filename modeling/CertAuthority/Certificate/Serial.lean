import CertAuthority.Der.Value
import CertAuthority.Error

/-!
# Serial numbers

A serial number is the content of an INTEGER. The authority draws numbers of a fixed width whose
highest two bits are `01`, so that they are positive, never need a sign octet and all have the same
length. Numbers from outside may be of any form that the decoder passes.
-/

namespace CertAuthority

open Der

/-- A serial number: the content octets of its INTEGER. -/
structure SerialNumber where
  content : Octets
deriving DecidableEq, Repr

namespace SerialNumber

/-- The width that is used unless configured otherwise. -/
def defaultWidth : Nat := 16

/-- How many octets serial numbers have at least. -/
def minWidth : Nat := 8

/-- How many octets serial numbers have at most. -/
def maxWidth : Nat := 20

/-- Refuses a width outside the bounds. -/
def checkWidth (width : Nat) : Except Error Unit :=
  if minWidth ≤ width && width ≤ maxWidth then .ok ()
  else
    .error (.invalidProfile
      ("serial width " ++ toString width ++ " outside " ++ toString minWidth ++ "..=" ++
        toString maxWidth))

/-- Octets without zeros at the start, but at least one if there is one. -/
def stripZeros : Octets → Octets
  | 0 :: b :: rest => stripZeros (b :: rest)
  | bs => bs

/-- The content of the positive INTEGER that octets write: zeros at the start are dropped, and one is
added where the first bit would be taken for a sign. Nothing stays nothing. -/
def positiveContent (bs : Octets) : Octets :=
  match stripZeros bs with
  | [] => []
  | b :: rest => if b < 128 then b :: rest else 0 :: b :: rest

/-- The serial number that octets write as a positive number. It is refused if it is longer than
certificates allow. -/
def ofOctets (bs : Octets) : Except Error SerialNumber :=
  let content := positiveContent bs
  if content.length ≤ maxWidth then .ok ⟨content⟩ else .error .der

/-- Octets whose highest two bits are replaced by `01`. -/
def markTop : Octets → Octets
  | [] => []
  | b :: rest => ((b &&& 0x3F) ||| 0x40) :: rest

/-- The serial number of a width that is made of drawn octets. Missing octets count as zero. -/
def draw (width : Nat) (drawn : Octets) : SerialNumber :=
  ⟨markTop ((drawn ++ List.replicate width 0).take width)⟩

def tlv (s : SerialNumber) : Tlv :=
  ⟨Tag.integer, s.content⟩

/-- How long the content of a serial number from outside may be. -/
def maxContent : Nat := 21

/-- Reads the DER form of a serial number. A negative one must be in shortest form; other forms are
passed. -/
def ofTlv? (t : Tlv) : Option SerialNumber := do
  let content ← t.content? Tag.integer
  if maxContent < content.length then none
  match content with
  | 0xFF :: b :: _ => if 128 ≤ b then none else some ⟨content⟩
  | _ => some ⟨content⟩

end SerialNumber

end CertAuthority
