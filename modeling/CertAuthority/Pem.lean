import CertAuthority.Base64
import CertAuthority.Octets

/-!
# PEM armour

A block of octets between a header and a footer that name its kind. The reader is strict: the header
starts the input, the footer ends it but for one line ending, and the line ending of the header is
the one that must stand before and after the footer.
-/

namespace CertAuthority.Pem

/-- Why octets are no PEM block. -/
inductive Error where
  /-- The input does not start with a header. -/
  | missingHeader
  /-- The header line is not complete. -/
  | malformedHeader
  /-- There is no footer with the label of the header. -/
  | missingFooter
  | trailingData
  /-- Nothing stands between header and footer. -/
  | emptyBody
  /-- The footer does not start a line. -/
  | unterminatedBody
  /-- The body is not base 64. -/
  | invalidBase64
  /-- The block is of another kind than was asked for. -/
  | unexpectedLabel (expected found : String)
deriving DecidableEq, Repr

/-- The wording of an error. -/
def Error.message : Error → String
  | missingHeader => "pem: missing PEM header"
  | malformedHeader => "pem: malformed PEM header"
  | missingFooter => "pem: missing PEM footer"
  | trailingData => "pem: trailing data after PEM block"
  | emptyBody => "pem: empty PEM body"
  | unterminatedBody => "pem: body must end with newline before footer"
  | invalidBase64 => "pem: invalid base64 body"
  | unexpectedLabel expected found =>
    "pem: expected " ++ expected ++ " block, found " ++ found

/-- The label of certificates. -/
def certificate : String := "CERTIFICATE"

/-- The label of private keys. -/
def privateKey : String := "PRIVATE KEY"

/-- The label of public keys. -/
def publicKey : String := "PUBLIC KEY"

/-- The label of revocation lists. -/
def revocationList : String := "X509 CRL"

/-- What stands in front of the label in the first line. -/
def opening : Octets := Octets.ofString "-----BEGIN "

/-- What stands in front of the label in the last line. -/
def closing : Octets := Octets.ofString "-----END "

/-- What stands behind the label in both lines. -/
def dashes : Octets := Octets.ofString "-----"

/-- What stands behind a start, if octets begin with it. -/
def afterStart? (start : Octets) (bs : Octets) : Option Octets :=
  if start.isPrefixOf bs then some (bs.drop start.length) else none

/-- What stands in front of an ending, if octets end with it. -/
def beforeEnd? (ending : Octets) (bs : Octets) : Option Octets :=
  if ending.isSuffixOf bs then some (bs.take (bs.length - ending.length)) else none

/-- The parts before and after the first line feed. -/
def firstLine? : Octets → Option (Octets × Octets)
  | [] => none
  | b :: rest => if b = 10 then some ([], rest) else (firstLine? rest).map fun p => (b :: p.1, p.2)

/-- The parts before and after the first place where a text stands. -/
def cutAt? (mark : Octets) : Octets → Option (Octets × Octets)
  | [] => if mark.isEmpty then some ([], []) else none
  | b :: rest =>
    match afterStart? mark (b :: rest) with
    | some tail => some ([], tail)
    | none => (cutAt? mark rest).map fun p => (b :: p.1, p.2)

/-- A body without its line endings. -/
def joinLines : Octets → Octets
  | [] => []
  | 13 :: 10 :: rest => joinLines rest
  | 10 :: rest => joinLines rest
  | b :: rest => b :: joinLines rest

/-- Reads the one block that the input consists of: its label and its octets. -/
def decode (input : Octets) : Except Error (String × Octets) := do
  let some rest := afterStart? opening input | throw .missingHeader
  let some (line, rest) := firstLine? rest | throw .malformedHeader
  let (header, lineEnding) : Octets × Octets :=
    match beforeEnd? [13] line with
    | some header => (header, [13, 10])
    | none => (line, [10])
  let some labelOctets := beforeEnd? dashes header | throw .malformedHeader
  if labelOctets.isEmpty then throw .malformedHeader
  let some label := Octets.toString? labelOctets | throw .malformedHeader
  let some (body, tail) := cutAt? (closing ++ labelOctets ++ dashes) rest | throw .missingFooter
  if !tail.isEmpty && tail != lineEnding then throw .trailingData
  if body.isEmpty then throw .emptyBody
  if !lineEnding.isSuffixOf body then throw .unterminatedBody
  let some octets := Base64.decode? (joinLines body) | throw .invalidBase64
  return (label, octets)

/-- Reads the block that the input consists of, which must have the expected label. -/
def decodeLabeled (expected : String) (input : Octets) : Except Error Octets := do
  let (found, octets) ← decode input
  if found = expected then return octets else throw (.unexpectedLabel expected found)

/-- Puts a line feed behind every 64 octets and behind the rest. -/
def wrap (bs : Octets) : Octets :=
  if bs.isEmpty then [] else bs.take 64 ++ 10 :: wrap (bs.drop 64)
termination_by bs.length
decreasing_by
  have := List.length_pos_iff.2 fun h : bs = [] => by simp_all
  simp only [List.length_drop]
  omega

/-- The block with a label and octets, in lines of 64 characters. -/
def encode (label : String) (octets : Octets) : Octets :=
  opening ++ Octets.ofString label ++ dashes ++ [10] ++ wrap (Base64.encode octets) ++ closing ++
    Octets.ofString label ++ dashes ++ [10]

end CertAuthority.Pem
