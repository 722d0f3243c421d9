import CertAuthority.Lenient.Element
import CertAuthority.Time.Civil

/-!
# Reading values leniently

The simple values in signed structures: identifiers, algorithms, bit strings, times and names. Each
reader gives back what it leaves unread.
-/

namespace CertAuthority.Lenient

open Civil (twoDigits?)

/-! ## Algorithms -/

/-- An algorithm as it was written. -/
structure Algorithm where
  /-- The content octets of its identifier. -/
  oid : Octets
  parameters : Option Element
deriving DecidableEq, Repr

/-- Reads an object identifier; any content is taken. -/
def oid? (bs : Octets) : Option (Octets × Octets) :=
  primitive? 6 bs

/-- Reads an algorithm; octets behind its parameters are passed over. -/
def algorithm? (bs : Octets) : Option (Algorithm × Octets) :=
  inSequence? (fun content => do
    let (oid, rest) ← oid? content
    let (parameters, _) ← ifAny? element? rest
    return ⟨oid, parameters⟩) bs

/-- The arcs after the first two. Octets after the last complete arc are dropped; an arc of more than
nine octets is too large. -/
def laterArcs? : (width value : Nat) → Octets → Option (List Nat)
  | _, _, [] => some []
  | width, value, b :: rest =>
    let value := value * 128 + b.toNat % 128
    if 9 ≤ width then none
    else if b < 128 then (laterArcs? 0 0 rest).map (value :: ·)
    else laterArcs? (width + 1) value rest

/-- The arcs that the content of an identifier stands for. -/
def arcs? : Octets → Option (List Nat)
  | [] => none
  | b :: rest => (laterArcs? 0 0 rest).map fun arcs => b.toNat / 40 :: b.toNat % 40 :: arcs

/-! ## Bit strings and integers -/

/-- How many low bits of an octet are zero. -/
def trailingZeros (b : UInt8) : Nat :=
  ((List.range 8).takeWhile fun i => !b.toNat.testBit i).length

/-- The octets in the content of a BIT STRING, whose unused bits must be zero. -/
def bits? : Octets → Option Octets
  | [] => none
  | [unused] => if unused = 0 then some [] else none
  | unused :: octets =>
    if unused < 8 && unused.toNat ≤ trailingZeros (octets.getLastD 0) then some octets else none

/-- Reads a BIT STRING and gives its octets. -/
def bitString? (bs : Octets) : Option (Octets × Octets) := do
  let (content, rest) ← primitive? 3 bs
  return (← bits? content, rest)

/-- Whether octets are an INTEGER of at most 32 bits that is not negative, in its shortest form. -/
def isWord : Octets → Bool
  | [] => false
  | 0 :: b :: rest => 128 ≤ b && rest.length < 4
  | b :: rest => b < 128 && rest.length < 4

/-- Passes over an INTEGER of at most 32 bits. -/
def word? (bs : Octets) : Option (Unit × Octets) := do
  let (content, rest) ← primitive? integerNumber bs
  if isWord content then some ((), rest) else none

/-- Passes over a serial number, whatever it is. -/
def serial? (bs : Octets) : Option (Unit × Octets) := do
  let (_, rest) ← numbered? integerNumber bs
  return ((), rest)

/-! ## Times -/

/-- Whether octets are digits. -/
def areDigits (bs : Octets) : Bool :=
  bs.all fun b => 48 ≤ b && b ≤ 57

/-- Whether a day is in the calendar. -/
def isDay (year month day : Nat) : Bool :=
  1 ≤ month && month ≤ 12 && 1 ≤ day && day ≤ Civil.monthDays year month

/-- Whether the end of a time is that of universal time or an offset from it. -/
def isZone : Octets → Bool
  | [90] => true
  | [sign, a, b, c, d] =>
    (sign == 43 || sign == 45) && (twoDigits? a b).any (· ≤ 23) && (twoDigits? c d).any (· ≤ 59)
  | _ => false

/-- Whether octets are the content of a UTCTime; seconds may be missing. -/
def isUtcTime : Octets → Bool
  | y1 :: y2 :: m1 :: m2 :: d1 :: d2 :: h1 :: h2 :: n1 :: n2 :: rest =>
    let date? := do return (← twoDigits? y1 y2, ← twoDigits? m1 m2, ← twoDigits? d1 d2)
    let year (y : Nat) : Nat := if 50 ≤ y then 1900 + y else 2000 + y
    let zone :=
      match rest with
      | s1 :: s2 :: zone => if (twoDigits? s1 s2).any (· ≤ 59) then zone else rest
      | _ => rest
    date?.any (fun d => isDay (year d.1) d.2.1 d.2.2) && (twoDigits? h1 h2).any (· ≤ 23) &&
      (twoDigits? n1 n2).any (· ≤ 59) && isZone zone
  | _ => false

/-- Whether the end of a GeneralizedTime is that of universal time, after a fraction of at most three
digits if there is one. -/
def isFraction : Octets → Bool
  | [90] => true
  | 46 :: rest =>
    let digits := rest.dropLast
    rest.getLast? == some 90 && areDigits digits && 1 ≤ digits.length && digits.length ≤ 3
  | _ => false

/-- Whether octets are the content of a GeneralizedTime. -/
def isGeneralizedTime : Octets → Bool
  | y1 :: y2 :: y3 :: y4 :: m1 :: m2 :: d1 :: d2 :: h1 :: h2 :: n1 :: n2 :: s1 :: s2 :: rest =>
    let date? := do
      return ((← twoDigits? y1 y2) * 100 + (← twoDigits? y3 y4), ← twoDigits? m1 m2,
        ← twoDigits? d1 d2)
    date?.any (fun d => isDay d.1 d.2.1 d.2.2) && (twoDigits? h1 h2).any (· ≤ 23) &&
      (twoDigits? n1 n2).any (· ≤ 59) && (twoDigits? s1 s2).any (· ≤ 59) && isFraction rest
  | _ => false

/-- Passes over a time. -/
def time? (bs : Octets) : Option (Unit × Octets) := do
  let (e, rest) ← element? bs
  if e.number = 23 && isUtcTime e.content then some ((), rest)
  else if e.number = 24 && isGeneralizedTime e.content then some ((), rest)
  else none

/-- Passes over the two ends of validity. -/
def validity? (bs : Octets) : Option (Unit × Octets) :=
  inSequence? (fun content => do
    let (_, rest) ← time? content
    let _ ← time? rest
    return ()) bs

/-! ## Names -/

/-- Passes over one attribute of a name. -/
def attribute? (bs : Octets) : Option (Unit × Octets) :=
  inSequence? (fun content => do
    let (_, rest) ← oid? content
    let _ ← element? rest
    return ()) bs

/-- Passes over a relative name, which has at least one attribute. -/
def rdn? (bs : Octets) : Option (Unit × Octets) := do
  let (e, rest) ← numbered? setNumber bs
  let _ ← attribute? e.content
  return ((), rest)

/-- Reads a name: the octets from its start to the end of the last relative name that can be read. -/
def name? (bs : Octets) : Option (Octets × Octets) := do
  let (e, rest) ← numbered? sequenceNumber bs
  let left := (many rdn? e.content.length e.content).2
  return (bs.take (bs.length - rest.length - left.length), rest)

/-! ## Keys and extensions -/

/-- Passes over a public key. -/
def publicKey? (bs : Octets) : Option (Unit × Octets) :=
  inSequence? (fun content => do
    let (_, rest) ← algorithm? content
    let _ ← bitString? rest
    return ()) bs

/-- Passes over the mark of a critical extension, if it is there. -/
def critical? (bs : Octets) : Option (Unit × Octets) := do
  let (e, rest) ← element? bs
  if e.number = 1 then if e.content.length = 1 && !e.isConstructed then some ((), rest) else none
  else some ((), bs)

/-- Passes over an extension, whatever its value is. -/
def extension? (bs : Octets) : Option (Unit × Octets) :=
  inSequence? (fun content => do
    let (_, rest) ← oid? content
    let (_, rest) ← critical? rest
    let _ ← primitive? 4 rest
    return ()) bs

/-- Passes over a SEQUENCE of extensions. -/
def extensions? (bs : Octets) : Option (Unit × Octets) :=
  inSequence? (fun content => do
    let _ ← all? extension? content
    return ()) bs

/-- Whether the rest of a signed part is nothing, or extensions under a tag with a number to its very
end. -/
def endsWithExtensions (number : Nat) (bs : Octets) : Bool :=
  bs.isEmpty ||
    match header? bs with
    | none => false
    | some ((tag, _), rest) =>
      tagNumber tag = number && (extensions? rest).any fun r => r.2.isEmpty

end CertAuthority.Lenient
