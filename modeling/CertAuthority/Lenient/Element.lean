import CertAuthority.Octets

/-!
# Reading elements leniently

What is signed is checked with a second reader that shares nothing with the strict one. It takes any
tag and any definite length, also one that is longer than need be, and mostly looks at the number of
a tag only.
-/

namespace CertAuthority.Lenient

/-- An element with the octets that its tag was written in. -/
structure Element where
  tag : Octets
  content : Octets
deriving DecidableEq, Repr

/-- The octets of a tag that goes on after its first octet; at most five more. The last of them has its
high bit clear. -/
def longTag? : Nat → Octets → Option (Octets × Octets)
  | 0, _ => none
  | _, [] => none
  | n + 1, b :: rest =>
    if b < 128 then some ([b], rest) else (longTag? n rest).map fun r => (b :: r.1, r.2)

/-- Reads the octets of a tag; the number of a long one has at most five. -/
def tag? : Octets → Option (Octets × Octets)
  | [] => none
  | b :: rest =>
    if b % 32 = 31 then (longTag? 5 rest).map fun r => (b :: r.1, r.2) else some ([b], rest)

/-- Reads a length, which must be definite but need not be the shortest. -/
def length? : Octets → Option (Nat × Octets)
  | [] => none
  | b :: rest =>
    if b < 128 then some (b.toNat, rest)
    else
      let width := b.toNat - 128
      if width = 0 || width = 127 || rest.length < width then none
      else some (Octets.toNat (rest.take width), rest.drop width)

/-- Reads a tag and a length. -/
def header? (bs : Octets) : Option ((Octets × Nat) × Octets) := do
  let (tag, rest) ← tag? bs
  let (n, rest) ← length? rest
  return ((tag, n), rest)

/-- Reads one element from the front of octets. -/
def element? (bs : Octets) : Option (Element × Octets) := do
  let ((tag, n), rest) ← header? bs
  if rest.length < n then none else some (⟨tag, rest.take n⟩, rest.drop n)

/-- The number that the octets of a tag write, in 32 bits. -/
def tagNumber : Octets → Nat
  | [] => 0
  | [b] => b.toNat % 32
  | _ :: rest => rest.foldl (fun n b => (n * 128 + b.toNat % 128) % UInt32.size) 0

/-- The number in the tag of an element, whatever its class. -/
def Element.number (e : Element) : Nat :=
  tagNumber e.tag

/-- The class of an element's tag, from zero to three. -/
def Element.tagClass (e : Element) : Nat :=
  (e.tag.headD 0).toNat / 64

/-- Whether an element is made of elements. -/
def Element.isConstructed (e : Element) : Bool :=
  (e.tag.headD 0).toNat / 32 % 2 = 1

/-- The number of the tag of an INTEGER. -/
def integerNumber : Nat := 2

/-- The number of the tag of a SEQUENCE. -/
def sequenceNumber : Nat := 16

/-- The number of the tag of a SET. -/
def setNumber : Nat := 17

/-- Reads an element whose tag has a number; what it is made of is not looked at. -/
def numbered? (number : Nat) (bs : Octets) : Option (Element × Octets) := do
  let (e, rest) ← element? bs
  if e.number = number then some (e, rest) else none

/-- Reads an element that is not made of elements and whose tag has a number. -/
def primitive? (number : Nat) (bs : Octets) : Option (Octets × Octets) := do
  let (e, rest) ← numbered? number bs
  if e.isConstructed then none else some (e.content, rest)

/-- Reads things until one cannot be read, and gives back what is left; the number bounds the
things. -/
def many {α : Type} (read? : Octets → Option (α × Octets)) : Nat → Octets → List α × Octets
  | 0, bs => ([], bs)
  | n + 1, bs =>
    match read? bs with
    | none => ([], bs)
    | some (a, rest) =>
      let (as, rest) := many read? n rest
      (a :: as, rest)

/-- Reads things until nothing is left. -/
def all? {α : Type} (read? : Octets → Option (α × Octets)) (bs : Octets) : Option (List α) :=
  match many read? bs.length bs with
  | (as, []) => some as
  | _ => none

/-- Reads things from the content of a SEQUENCE, of which the last may leave octets unread. -/
def inSequence? {α : Type} (read? : Octets → Option α) (bs : Octets) : Option (α × Octets) := do
  let (e, rest) ← numbered? sequenceNumber bs
  return (← read? e.content, rest)

/-- Reads octets only if there are any. -/
def ifAny? {α : Type} (read? : Octets → Option (α × Octets)) (bs : Octets) :
    Option (Option α × Octets) :=
  if bs.isEmpty then some (none, bs) else (read? bs).map fun r => (some r.1, r.2)

/-- Reads an element with a context-specific tag that may be missing. The same number in another
class is refused. -/
def field? (number : Nat) (bs : Octets) : Option (Option Element × Octets) :=
  if bs.isEmpty then some (none, bs)
  else do
    let (e, rest) ← element? bs
    if e.number ≠ number then some (none, bs)
    else if e.tagClass = 2 then some (some e, rest)
    else none

end CertAuthority.Lenient
