import CertAuthority.Octets

/-!
# Object identifiers

An object identifier is held as the content octets of its DER form: one octet for the first two
arcs, then every later arc in base 128, all digits but the last with the high bit set. Two
identifiers are equal exactly when these octets are. The textual form joins the arcs with full
stops; `Oid.parse` reads it and `Oid.text` writes it.
-/

namespace CertAuthority

/-- Whether octets are complete base 128 numbers. The first argument counts the octets already read
of the current number: from the sixth on, only its last four bits may be used. -/
def isBase128 : Nat → Octets → Bool
  | 0, [] => true
  | _ + 1, [] => false
  | n, b :: rest =>
    if 5 ≤ n && 16 ≤ b then false
    else if b < 128 then isBase128 0 rest
    else isBase128 (n + 1) rest

/-- Whether octets are the content of an identifier: there are at least three arcs and at most 39
octets, the first octet holds two arcs that exist, and the rest are complete numbers. -/
def isOidContent (octets : Octets) : Bool :=
  2 ≤ octets.length && octets.length ≤ 39 && octets.headD 255 ≤ 119 && isBase128 0 octets.tail

/-- An object identifier. -/
structure Oid where
  /-- The content of the DER form. -/
  octets : Octets
  wellFormed : isOidContent octets = true
deriving DecidableEq, Repr

namespace Oid

/-- The identifier with the given content octets, if they are well formed. -/
def ofOctets? (octets : Octets) : Option Oid :=
  if h : isOidContent octets = true then some ⟨octets, h⟩ else none

/-- The octets of an identifier are accepted again. -/
@[simp] theorem ofOctets?_octets (oid : Oid) : ofOctets? oid.octets = some oid := by
  simp [ofOctets?, oid.wellFormed]

/-- Puts the higher base 128 digits of a number, each with the high bit, in front of octets. -/
def base128High (n : Nat) (tail : Octets) : Octets :=
  if n = 0 then tail
  else base128High (n / 128) (UInt8.ofNat (128 + n % 128) :: tail)
termination_by n

/-- A number in base 128, the high bit marking every digit but the last. -/
def base128 (n : Nat) : Octets :=
  base128High (n / 128) [UInt8.ofNat (n % 128)]

/-- The octets of arcs, of which the first two share one number. -/
def encodeArcs : List Nat → Octets
  | first :: second :: rest => UInt8.ofNat (first * 40 + second) :: rest.flatMap base128
  | _ => []

/-- The numbers that base 128 octets write, each modulo 2³². -/
def readBase128 : Nat → Octets → List Nat
  | _, [] => []
  | n, b :: rest =>
    let m := (n * 128 + b.toNat % 128) % UInt32.size
    if b < 128 then m :: readBase128 0 rest else readBase128 m rest

/-- The arcs that the octets of an identifier write. -/
def arcs (oid : Oid) : List Nat :=
  match oid.octets with
  | [] => []
  | b :: rest => b.toNat / 40 :: b.toNat % 40 :: readBase128 0 rest

/-- The dotted form. -/
def text (oid : Oid) : String :=
  ".".intercalate (oid.arcs.map toString)

/-- The form of an identifier in reports. -/
def summary (oid : Oid) : String :=
  "ObjectIdentifier(" ++ oid.text ++ ")"

/-- Why a text is no object identifier. -/
inductive Error where
  | empty
  /-- Something other than a digit stands where an arc begins or goes on. -/
  | digitExpected (actual : UInt8)
  /-- The text ends in a full stop. -/
  | trailingDot
  /-- The first arc is above 2 or the second above 39. -/
  | arcInvalid (arc : Nat)
  /-- An arc does not fit 32 bits. -/
  | arcTooBig
  /-- The encoded form is too long. -/
  | tooLong
  /-- There are fewer than three arcs. -/
  | notEnoughArcs
deriving DecidableEq, Repr

/-- The wording of an error. An unexpected octet is shown as the character of that number. -/
def Error.message : Error → String
  | empty => "OID value is empty"
  | digitExpected actual => "expected digit, got '" ++ (Char.ofNat actual.toNat).toString ++ "'"
  | trailingDot => "OID ends with invalid trailing '.'"
  | arcInvalid arc => "OID contains out-of-range arc: " ++ toString arc
  | arcTooBig => "OID contains arc which is larger than 32-bits"
  | tooLong => "OID length invalid"
  | notEnoughArcs => "OID requires minimum of 3 arcs"

/-- Puts an arc behind those that were read, if it can stand there. -/
def pushArc (arcs : List Nat) (arc : Nat) : Except Error (List Nat) :=
  match arcs with
  | [] => if 2 < arc then .error (.arcInvalid arc) else .ok [arc]
  | [first] => if 39 < arc then .error (.arcInvalid arc) else .ok [first, arc]
  | _ =>
    if 38 < (encodeArcs (arcs ++ [arc])).length then .error .tooLong else .ok (arcs ++ [arc])

/-- Whether an octet is an ASCII digit. -/
def isDigit (b : UInt8) : Bool :=
  48 ≤ b && b ≤ 57

/-- Reads the arcs of a text, octet by octet: `arcs` are complete, `current` is being read. -/
def readArcs (arcs : List Nat) (current : Nat) : Octets → Except Error (List Nat)
  | [] => pushArc arcs current
  | b :: rest =>
    if isDigit b then
      let next := current * 10 + (b.toNat - 48)
      if UInt32.size ≤ next then .error .arcTooBig else readArcs arcs next rest
    else if b = 46 then
      if rest.isEmpty then .error .trailingDot
      else
        match pushArc arcs current with
        | .error e => .error e
        | .ok arcs => readArcs arcs 0 rest
    else .error (.digitExpected b)

/-- Reads the dotted form. An arc without digits counts as zero, but the text must begin with a
digit. -/
def parse (s : String) : Except Error Oid :=
  match Octets.ofString s with
  | [] => .error .empty
  | b :: rest =>
    if isDigit b then do
      let arcs ← readArcs [] 0 (b :: rest)
      if arcs.length < 3 then .error .notEnoughArcs
      else
        match ofOctets? (encodeArcs arcs) with
        | some oid => .ok oid
        | none => .error .tooLong
    else .error (.digitExpected b)

end Oid

end CertAuthority
