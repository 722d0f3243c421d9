import CertAuthority.Lenient.Value

/-!
# Reading signed structures leniently

What is needed to check the signature of a certificate or a revocation list: the octets that were
signed, the algorithms inside and outside of them, the signature; of a certificate also the octets of
its subject.
-/

namespace CertAuthority.Lenient

/-- What is read of a signed part. -/
structure SignedPart where
  /-- Its octets, from the tag to the end. -/
  octets : Octets
  algorithm : Algorithm
  /-- The octets of the subject, in a certificate. -/
  subject : Octets
deriving DecidableEq, Repr

/-- What is read of a signed structure. -/
structure Signed where
  part : SignedPart
  /-- The algorithm that stands beside the signature. -/
  algorithm : Algorithm
  signature : Octets
deriving DecidableEq, Repr

/-- Passes over the version of a certificate, if it is there. -/
def version? (bs : Octets) : Option (Unit × Octets) := do
  let (version, rest) ← field? 0 bs
  match version with
  | none => return ((), rest)
  | some e => do
    let _ ← word? e.content
    return ((), rest)

/-- Passes over a mark of the issuer or the subject, if it is there. -/
def uniqueId? (number : Nat) (bs : Octets) : Option (Unit × Octets) := do
  let (id, rest) ← field? number bs
  match id with
  | none => return ((), rest)
  | some e => do
    let _ ← bits? e.content
    return ((), rest)

/-- Reads the fields of the signed part of a certificate. -/
def certificateFields? (content : Octets) : Option (Algorithm × Octets) := do
  let (_, rest) ← version? content
  let (_, rest) ← serial? rest
  let (algorithm, rest) ← algorithm? rest
  let (_, rest) ← name? rest
  let (_, rest) ← validity? rest
  let (subject, rest) ← name? rest
  let (_, rest) ← publicKey? rest
  let (_, rest) ← uniqueId? 1 rest
  let (_, rest) ← uniqueId? 2 rest
  if endsWithExtensions 3 rest then some (algorithm, subject) else none

/-- Passes over an entry of a revocation list. -/
def revoked? (bs : Octets) : Option (Unit × Octets) :=
  inSequence? (fun content => do
    let (_, rest) ← serial? content
    let (_, rest) ← time? rest
    if rest.isEmpty then return ()
    else do
      let _ ← extensions? rest
      return ()) bs

/-- Passes over the version of a revocation list, if it is there. -/
def listVersion? (bs : Octets) : Option (Unit × Octets) := do
  let (e, _) ← element? bs
  if e.number = integerNumber then word? bs else some ((), bs)

/-- Passes over the time of the next list, if it is there. -/
def nextUpdate? (bs : Octets) : Option (Unit × Octets) :=
  if bs.isEmpty then some ((), bs)
  else do
    let (e, _) ← element? bs
    if e.number = 23 || e.number = 24 then time? bs else some ((), bs)

/-- Passes over the entries of a revocation list, if they are there. -/
def entries? (bs : Octets) : Option (Unit × Octets) :=
  if bs.isEmpty then some ((), bs)
  else do
    let (e, rest) ← element? bs
    if e.number = sequenceNumber then
      let _ ← all? revoked? e.content
      return ((), rest)
    else some ((), bs)

/-- Reads the fields of the signed part of a revocation list. -/
def listFields? (content : Octets) : Option (Algorithm × Octets) := do
  let (_, rest) ← listVersion? content
  let (algorithm, rest) ← algorithm? rest
  let (_, rest) ← name? rest
  let (_, rest) ← time? rest
  let (_, rest) ← nextUpdate? rest
  let (_, rest) ← entries? rest
  if endsWithExtensions 0 rest then some (algorithm, []) else none

/-- Reads a signed part with a reader for all of its fields. -/
def part? (fields? : Octets → Option (Algorithm × Octets)) (bs : Octets) :
    Option (SignedPart × Octets) := do
  let (e, rest) ← numbered? sequenceNumber bs
  let (algorithm, subject) ← fields? e.content
  return (⟨bs.take (bs.length - rest.length), algorithm, subject⟩, rest)

/-- Reads a signed structure from the front of octets. -/
def signed? (fields? : Octets → Option (Algorithm × Octets)) (bs : Octets) :
    Option (Signed × Octets) :=
  inSequence? (fun content => do
    let (part, rest) ← part? fields? content
    let (algorithm, rest) ← algorithm? rest
    let (signature, _) ← bitString? rest
    return ⟨part, algorithm, signature⟩) bs

/-- Reads a certificate from the front of octets. -/
def certificate? (bs : Octets) : Option (Signed × Octets) :=
  signed? certificateFields? bs

/-- Reads a revocation list from the front of octets. -/
def revocationList? (bs : Octets) : Option (Signed × Octets) :=
  signed? listFields? bs

end CertAuthority.Lenient
