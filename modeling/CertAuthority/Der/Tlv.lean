import CertAuthority.Octets

/-!
# DER elements

Every DER value is an element: a tag octet, a length and that many content octets. Types of the
library are encoded as elements and decoded from elements; this module turns elements into octets
and back. The reader accepts exactly one spelling of each element: a known tag, the shortest
definite length, at most `maxLength` octets.
-/

namespace CertAuthority.Der

/-- An element: its tag octet and its content. -/
structure Tlv where
  /-- Class, form and number of the tag in one octet. -/
  tag : UInt8
  content : Octets
deriving DecidableEq, Repr

namespace Tag

def boolean : UInt8 := 0x01

def integer : UInt8 := 0x02

def bitString : UInt8 := 0x03

def octetString : UInt8 := 0x04

def null : UInt8 := 0x05

def oid : UInt8 := 0x06

def enumerated : UInt8 := 0x0A

def utf8String : UInt8 := 0x0C

def printableString : UInt8 := 0x13

def ia5String : UInt8 := 0x16

def utcTime : UInt8 := 0x17

def generalizedTime : UInt8 := 0x18

def bmpString : UInt8 := 0x1E

def sequence : UInt8 := 0x30

def set : UInt8 := 0x31

/-- A context-specific tag of a primitive element. -/
def context (n : UInt8) : UInt8 := 0x80 + n

/-- A context-specific tag of a constructed element. -/
def contextConstructed (n : UInt8) : UInt8 := 0xA0 + n

/-- The universal tags that the reader knows. -/
def universal : List UInt8 :=
  [0x01, 0x02, 0x03, 0x04, 0x05, 0x06, 0x09, 0x0A, 0x0C, 0x12, 0x13, 0x14, 0x15, 0x16, 0x17, 0x18,
   0x1A, 0x1E, 0x30, 0x31]

/-- A tag that the reader knows: one of the universal ones, or a tag of another class whose number
fits the tag octet. -/
def isKnown (tag : UInt8) : Bool :=
  if tag < 0x40 then universal.contains tag else tag % 32 != 31

end Tag

/-- The largest content that an element may have, in octets. -/
def maxLength : Nat := 0xFFFFFFF

/-- The shortest definite form of a length. -/
def lengthOctets (n : Nat) : Octets :=
  if n < 128 then [UInt8.ofNat n]
  else UInt8.ofNat (128 + Octets.byteLength n) :: Octets.ofNat n

/-- Reads a length in its shortest definite form. -/
def readLength? : Octets → Option (Nat × Octets)
  | [] => none
  | b :: rest =>
    if b < 128 then some (b.toNat, rest)
    else
      let width := b.toNat - 128
      let n := Octets.toNat (rest.take width)
      if width ≤ 4 && n ≤ maxLength && lengthOctets n == b :: rest.take width then
        some (n, rest.drop width)
      else none

/-- Reading a length takes at least one octet. -/
theorem readLength?_length {bs rest : Octets} {n : Nat} (h : readLength? bs = some (n, rest)) :
    rest.length < bs.length := by
  cases bs with
  | nil => simp [readLength?] at h
  | cons b bs =>
    simp only [readLength?] at h
    split at h
    · simp only [Option.some.injEq, Prod.mk.injEq] at h
      simp [← h.2]
    · split at h
      · simp only [Option.some.injEq, Prod.mk.injEq] at h
        simp only [← h.2, List.length_drop, List.length_cons]
        omega
      · cases h

/-- An element where a structure leaves the type open: it may be of any type that the reader
knows. -/
structure Any where
  tlv : Tlv
  known : Tag.isKnown tlv.tag = true := by rfl
deriving DecidableEq, Repr

/-- An element of any type that the reader knows. -/
def Any.ofTlv? (t : Tlv) : Option Any :=
  if h : Tag.isKnown t.tag = true then some ⟨t, h⟩ else none

namespace Tlv

def encode (t : Tlv) : Octets :=
  t.tag :: (lengthOctets t.content.length ++ t.content)

/-- Reads one element from the front of octets. -/
def read? : Octets → Option (Tlv × Octets)
  | [] => none
  | tag :: bs =>
    if Tag.isKnown tag then
      match readLength? bs with
      | none => none
      | some (n, body) =>
        if body.length < n then none else some (⟨tag, body.take n⟩, body.drop n)
    else none

/-- Reading an element takes at least one octet. -/
theorem read?_length {bs rest : Octets} {t : Tlv} (h : read? bs = some (t, rest)) :
    rest.length < bs.length := by
  cases bs with
  | nil => simp [read?] at h
  | cons b bs =>
    simp only [read?] at h
    split at h
    · split at h
      · cases h
      · rename_i n body hl
        have hlt := readLength?_length hl
        split at h
        · cases h
        · simp only [Option.some.injEq, Prod.mk.injEq] at h
          simp only [← h.2, List.length_drop, List.length_cons]
          omega
    · cases h

/-- Reads elements until the octets end. -/
def readAll? (bs : Octets) : Option (List Tlv) :=
  if bs.isEmpty then some []
  else
    match _h : read? bs with
    | none => none
    | some (t, rest) => (readAll? rest).map (t :: ·)
termination_by bs.length
decreasing_by exact read?_length _h

/-- Reads octets that are exactly one element. -/
def decode? (bs : Octets) : Option Tlv :=
  match read? bs with
  | some (t, []) => some t
  | _ => none

/-- The element with a constructed tag around other elements. -/
def around (tag : UInt8) (ts : List Tlv) : Tlv :=
  ⟨tag, ts.flatMap encode⟩

def sequence (ts : List Tlv) : Tlv :=
  around Tag.sequence ts

/-- A SET of elements, which are given in ascending order. -/
def set (ts : List Tlv) : Tlv :=
  around Tag.set ts

/-- An element inside an explicit context-specific tag. -/
def explicit (n : UInt8) (t : Tlv) : Tlv :=
  around (Tag.contextConstructed n) [t]

/-- The elements inside an element with the given tag. -/
def inside? (tag : UInt8) (t : Tlv) : Option (List Tlv) :=
  if t.tag = tag then readAll? t.content else none

/-- The one element inside an explicit context-specific tag. -/
def explicit? (n : UInt8) (t : Tlv) : Option Tlv :=
  if t.tag = Tag.contextConstructed n then decode? t.content else none

def content? (tag : UInt8) (t : Tlv) : Option Octets :=
  if t.tag = tag then some t.content else none

/-- Puts a value into a list of values in ascending order of the octets of their elements; a value
whose element is there already is refused. -/
def insertDistinct {α : Type} (tlv : α → Tlv) (x : α) : List α → Option (List α)
  | [] => some [x]
  | y :: ys =>
    if tlv x = tlv y then none
    else if (tlv x).encode < (tlv y).encode then some (x :: y :: ys)
    else (insertDistinct tlv x ys).map (y :: ·)

/-- The values of a SET OF in ascending order of their elements. Values in another order are put in
order, but no two elements may be equal. -/
def ascendingBy? {α : Type} (tlv : α → Tlv) (as : List α) : Option (List α) :=
  as.foldrM (insertDistinct tlv) []

/-- The elements of a SET OF in ascending order. -/
def ascending? (ts : List Tlv) : Option (List Tlv) :=
  ascendingBy? id ts

end Tlv

end CertAuthority.Der
