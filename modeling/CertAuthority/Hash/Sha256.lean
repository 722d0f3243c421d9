import CertAuthority.Hash.Blocks

/-!
# SHA-256
-/

namespace CertAuthority.Hash.Sha256

/-- The eight words that a message is folded into. -/
structure State where
  a : UInt32
  b : UInt32
  c : UInt32
  d : UInt32
  e : UInt32
  f : UInt32
  g : UInt32
  h : UInt32

def constants : List UInt32 :=
  [0x428A2F98, 0x71374491, 0xB5C0FBCF, 0xE9B5DBA5, 0x3956C25B, 0x59F111F1, 0x923F82A4, 0xAB1C5ED5,
   0xD807AA98, 0x12835B01, 0x243185BE, 0x550C7DC3, 0x72BE5D74, 0x80DEB1FE, 0x9BDC06A7, 0xC19BF174,
   0xE49B69C1, 0xEFBE4786, 0x0FC19DC6, 0x240CA1CC, 0x2DE92C6F, 0x4A7484AA, 0x5CB0A9DC, 0x76F988DA,
   0x983E5152, 0xA831C66D, 0xB00327C8, 0xBF597FC7, 0xC6E00BF3, 0xD5A79147, 0x06CA6351, 0x14292967,
   0x27B70A85, 0x2E1B2138, 0x4D2C6DFC, 0x53380D13, 0x650A7354, 0x766A0ABB, 0x81C2C92E, 0x92722C85,
   0xA2BFE8A1, 0xA81A664B, 0xC24B8B70, 0xC76C51A3, 0xD192E819, 0xD6990624, 0xF40E3585, 0x106AA070,
   0x19A4C116, 0x1E376C08, 0x2748774C, 0x34B0BCB5, 0x391C0CB3, 0x4ED8AA4A, 0x5B9CCA4F, 0x682E6FF3,
   0x748F82EE, 0x78A5636F, 0x84C87814, 0x8CC70208, 0x90BEFFFA, 0xA4506CEB, 0xBEF9A3F7, 0xC67178F2]

/-- The words before the first block. -/
def start : State :=
  ⟨0x6A09E667, 0xBB67AE85, 0x3C6EF372, 0xA54FF53A,
   0x510E527F, 0x9B05688C, 0x1F83D9AB, 0x5BE0CD19⟩

def rotate (w n : UInt32) : UInt32 :=
  (w >>> n) ||| (w <<< (32 - n))

/-- Appends `n` words to a schedule whose words stand newest first. -/
def extend : Nat → List UInt32 → List UInt32
  | 0, ws => ws
  | n + 1, ws =>
    let x := ws.getD 14 0
    let y := ws.getD 1 0
    let low := rotate x 7 ^^^ rotate x 18 ^^^ (x >>> 3)
    let high := rotate y 17 ^^^ rotate y 19 ^^^ (y >>> 10)
    extend n ((high + ws.getD 6 0 + low + ws.getD 15 0) :: ws)

def round (s : State) (k w : UInt32) : State :=
  let high := rotate s.e 6 ^^^ rotate s.e 11 ^^^ rotate s.e 25
  let choice := (s.e &&& s.f) ^^^ (~~~s.e &&& s.g)
  let x := s.h + high + choice + k + w
  let low := rotate s.a 2 ^^^ rotate s.a 13 ^^^ rotate s.a 22
  let majority := (s.a &&& s.b) ^^^ (s.a &&& s.c) ^^^ (s.b &&& s.c)
  ⟨x + (low + majority), s.a, s.b, s.c, s.d + x, s.e, s.f, s.g⟩

def rounds (s : State) : List UInt32 → List UInt32 → State
  | k :: ks, w :: ws => rounds (round s k w) ks ws
  | _, _ => s

def compress (s : State) (block : Octets) : State :=
  let schedule := (extend (constants.length - 16) (words32 block).reverse).reverse
  let r := rounds s constants schedule
  ⟨s.a + r.a, s.b + r.b, s.c + r.c, s.d + r.d, s.e + r.e, s.f + r.f, s.g + r.g, s.h + r.h⟩

/-- Folds a message into words, beginning with the given ones. -/
def fold (first : State) (message : Octets) : Octets :=
  let s := (pieces 63 (padded 64 8 message)).foldl compress first
  octets32 [s.a, s.b, s.c, s.d, s.e, s.f, s.g, s.h]

def hash (message : Octets) : Octets :=
  fold start message

end CertAuthority.Hash.Sha256
