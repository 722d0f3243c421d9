import CertAuthority.Hash.Blocks

/-!
# SHA-1

The hash that key identifiers are made of.
-/

namespace CertAuthority.Hash.Sha1

/-- The five words that a message is folded into. -/
structure State where
  a : UInt32
  b : UInt32
  c : UInt32
  d : UInt32
  e : UInt32

/-- The words before the first block. -/
def start : State :=
  ⟨0x67452301, 0xEFCDAB89, 0x98BADCFE, 0x10325476, 0xC3D2E1F0⟩

/-- A word with its bits moved to the left, those that leave it coming back on the right. -/
def rotate (w : UInt32) (n : UInt32) : UInt32 :=
  (w <<< n) ||| (w >>> (32 - n))

/-- Appends `n` words to a schedule whose words stand newest first. -/
def extend : Nat → List UInt32 → List UInt32
  | 0, ws => ws
  | n + 1, ws =>
    extend n
      (rotate (ws.getD 2 0 ^^^ ws.getD 7 0 ^^^ ws.getD 13 0 ^^^ ws.getD 15 0) 1 :: ws)

/-- One round; the function and the constant depend on its number. -/
def round (s : State) (t : Nat) (w : UInt32) : State :=
  let f :=
    if t < 20 then (s.b &&& s.c) ||| (~~~s.b &&& s.d)
    else if t < 40 then s.b ^^^ s.c ^^^ s.d
    else if t < 60 then (s.b &&& s.c) ||| (s.b &&& s.d) ||| (s.c &&& s.d)
    else s.b ^^^ s.c ^^^ s.d
  let k : UInt32 :=
    if t < 20 then 0x5A827999
    else if t < 40 then 0x6ED9EBA1
    else if t < 60 then 0x8F1BBCDC
    else 0xCA62C1D6
  ⟨rotate s.a 5 + f + s.e + k + w, s.a, rotate s.b 30, s.c, s.d⟩

/-- The rounds from a number on, one for each word of the schedule. -/
def rounds (s : State) (t : Nat) : List UInt32 → State
  | [] => s
  | w :: ws => rounds (round s t w) (t + 1) ws

/-- The state behind a block. -/
def compress (s : State) (block : Octets) : State :=
  let schedule := (extend 64 (words32 block).reverse).reverse
  let r := rounds s 0 schedule
  ⟨s.a + r.a, s.b + r.b, s.c + r.c, s.d + r.d, s.e + r.e⟩

/-- The hash of a message. -/
def hash (message : Octets) : Octets :=
  let s := (pieces 63 (padded 64 8 message)).foldl compress start
  octets32 [s.a, s.b, s.c, s.d, s.e]

end CertAuthority.Hash.Sha1
