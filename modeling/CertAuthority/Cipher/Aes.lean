import CertAuthority.Cipher.Block

/-!
# AES with keys of 256 bits

Fifteen round keys are made from the key. Encryption adds the first one and then, for each of the
others, substitutes octets, shifts rows, mixes columns (but not in the last round) and adds the round
key. Decryption undoes these steps from the last to the first. Mixing the columns four times changes
nothing, so that mixing them three times undoes it.
-/

namespace CertAuthority.Cipher.Aes

/-- The table of the substitution. -/
def substitution : Array UInt8 :=
  #[0x63, 0x7C, 0x77, 0x7B, 0xF2, 0x6B, 0x6F, 0xC5, 0x30, 0x01, 0x67, 0x2B, 0xFE, 0xD7, 0xAB, 0x76,
    0xCA, 0x82, 0xC9, 0x7D, 0xFA, 0x59, 0x47, 0xF0, 0xAD, 0xD4, 0xA2, 0xAF, 0x9C, 0xA4, 0x72, 0xC0,
    0xB7, 0xFD, 0x93, 0x26, 0x36, 0x3F, 0xF7, 0xCC, 0x34, 0xA5, 0xE5, 0xF1, 0x71, 0xD8, 0x31, 0x15,
    0x04, 0xC7, 0x23, 0xC3, 0x18, 0x96, 0x05, 0x9A, 0x07, 0x12, 0x80, 0xE2, 0xEB, 0x27, 0xB2, 0x75,
    0x09, 0x83, 0x2C, 0x1A, 0x1B, 0x6E, 0x5A, 0xA0, 0x52, 0x3B, 0xD6, 0xB3, 0x29, 0xE3, 0x2F, 0x84,
    0x53, 0xD1, 0x00, 0xED, 0x20, 0xFC, 0xB1, 0x5B, 0x6A, 0xCB, 0xBE, 0x39, 0x4A, 0x4C, 0x58, 0xCF,
    0xD0, 0xEF, 0xAA, 0xFB, 0x43, 0x4D, 0x33, 0x85, 0x45, 0xF9, 0x02, 0x7F, 0x50, 0x3C, 0x9F, 0xA8,
    0x51, 0xA3, 0x40, 0x8F, 0x92, 0x9D, 0x38, 0xF5, 0xBC, 0xB6, 0xDA, 0x21, 0x10, 0xFF, 0xF3, 0xD2,
    0xCD, 0x0C, 0x13, 0xEC, 0x5F, 0x97, 0x44, 0x17, 0xC4, 0xA7, 0x7E, 0x3D, 0x64, 0x5D, 0x19, 0x73,
    0x60, 0x81, 0x4F, 0xDC, 0x22, 0x2A, 0x90, 0x88, 0x46, 0xEE, 0xB8, 0x14, 0xDE, 0x5E, 0x0B, 0xDB,
    0xE0, 0x32, 0x3A, 0x0A, 0x49, 0x06, 0x24, 0x5C, 0xC2, 0xD3, 0xAC, 0x62, 0x91, 0x95, 0xE4, 0x79,
    0xE7, 0xC8, 0x37, 0x6D, 0x8D, 0xD5, 0x4E, 0xA9, 0x6C, 0x56, 0xF4, 0xEA, 0x65, 0x7A, 0xAE, 0x08,
    0xBA, 0x78, 0x25, 0x2E, 0x1C, 0xA6, 0xB4, 0xC6, 0xE8, 0xDD, 0x74, 0x1F, 0x4B, 0xBD, 0x8B, 0x8A,
    0x70, 0x3E, 0xB5, 0x66, 0x48, 0x03, 0xF6, 0x0E, 0x61, 0x35, 0x57, 0xB9, 0x86, 0xC1, 0x1D, 0x9E,
    0xE1, 0xF8, 0x98, 0x11, 0x69, 0xD9, 0x8E, 0x94, 0x9B, 0x1E, 0x87, 0xE9, 0xCE, 0x55, 0x28, 0xDF,
    0x8C, 0xA1, 0x89, 0x0D, 0xBF, 0xE6, 0x42, 0x68, 0x41, 0x99, 0x2D, 0x0F, 0xB0, 0x54, 0xBB, 0x16]

/-- The table of the inverse substitution. -/
def preimages : Array UInt8 :=
  ((List.range 256).map fun n =>
    UInt8.ofNat (substitution.toList.findIdx fun s => s == UInt8.ofNat n)).toArray

def substitute (x : UInt8) : UInt8 :=
  substitution.getD x.toNat 0

def unsubstitute (x : UInt8) : UInt8 :=
  preimages.getD x.toNat 0

/-- Moves row `i` of a block `i` places to the left; the words are the columns. -/
def shiftRows (s : Block) : Block :=
  ⟨⟨s.w.a, s.x.b, s.y.c, s.z.d⟩, ⟨s.x.a, s.y.b, s.z.c, s.w.d⟩, ⟨s.y.a, s.z.b, s.w.c, s.x.d⟩,
   ⟨s.z.a, s.w.b, s.x.c, s.y.d⟩⟩

/-- Moves row `i` of a block `i` places to the right. -/
def unshiftRows (s : Block) : Block :=
  ⟨⟨s.w.a, s.z.b, s.y.c, s.x.d⟩, ⟨s.x.a, s.w.b, s.z.c, s.y.d⟩, ⟨s.y.a, s.x.b, s.w.c, s.z.d⟩,
   ⟨s.z.a, s.y.b, s.x.c, s.w.d⟩⟩

/-- Shifting the rows back takes the shift back. -/
theorem unshiftRows_shiftRows (s : Block) : unshiftRows (shiftRows s) = s := rfl

/-- Twice an octet, as a polynomial of bits modulo x⁸ + x⁴ + x³ + x + 1. -/
def double (x : UInt8) : UInt8 :=
  if x < 0x80 then x <<< 1 else (x <<< 1) ^^^ 0x1B

/-- Mixes a column: each octet becomes twice itself, three times the next one and once the others. -/
def mixColumn (v : Word) : Word :=
  ⟨double (v.a ^^^ v.b) ^^^ v.b ^^^ v.c ^^^ v.d, double (v.b ^^^ v.c) ^^^ v.c ^^^ v.d ^^^ v.a,
   double (v.c ^^^ v.d) ^^^ v.d ^^^ v.a ^^^ v.b, double (v.d ^^^ v.a) ^^^ v.a ^^^ v.b ^^^ v.c⟩

/-- Undoes the mixing of a column. -/
def unmixColumn (v : Word) : Word :=
  mixColumn (mixColumn (mixColumn v))

/-- Substitutes the octets of a block and shifts its rows. -/
def scramble (s : Block) : Block :=
  shiftRows (s.map (Word.map substitute))

/-- Undoes `scramble`. -/
def unscramble (s : Block) : Block :=
  (unshiftRows s).map (Word.map unsubstitute)

/-- Adds to each word of a block all the words before it and a first one. -/
def chain (v : Word) (k : Block) : Block :=
  let w := v.xor k.w
  let x := w.xor k.x
  let y := x.xor k.y
  ⟨w, x, y, y.xor k.z⟩

/-- The round keys that follow from two of them, one pair for each round constant. -/
def expand (k l : Block) : List UInt8 → List Block
  | [] => [k]
  | constant :: constants =>
    let k' := chain ((l.z.rotate.map substitute).xor ⟨constant, 0, 0, 0⟩) k
    let l' := chain (k'.z.map substitute) l
    k :: l :: expand k' l' constants

/-- The round constants, each twice the one before. -/
def roundConstants : List UInt8 := [0x01, 0x02, 0x04, 0x08, 0x10, 0x20, 0x40]

/-- A key: its first and its second half. -/
structure Key where
  low : Block
  high : Block
deriving DecidableEq, Repr

namespace Key

/-- How many octets a key has. -/
def size : Nat := 32

/-- The octets of a key. -/
def octets (k : Key) : Octets :=
  k.low.octets ++ k.high.octets

/-- Reads exactly one key. -/
def ofOctets? (bs : Octets) : Option Key := do
  let (low, rest) ← Block.take? bs
  return ⟨low, ← Block.ofOctets? rest⟩

/-- The keys of the rounds. -/
def roundKeys (k : Key) : List Block :=
  expand k.low k.high roundConstants

end Key

/-- The rounds of encryption, with a round key each. -/
def rounds : List Block → Block → Block
  | [], s => s
  | [k], s => (scramble s).xor k
  | k :: ks, s => rounds ks (((scramble s).map mixColumn).xor k)

/-- Takes rounds back, the last one first. -/
def unrounds : List Block → Block → Block
  | [], s => s
  | [k], s => unscramble (s.xor k)
  | k :: ks, s => unscramble (((unrounds ks s).xor k).map unmixColumn)

/-- Encrypts a block with the keys of the rounds. -/
def encrypt : List Block → Block → Block
  | [], s => s
  | k :: ks, s => rounds ks (s.xor k)

/-- Decrypts a block with the keys of the rounds. -/
def decrypt : List Block → Block → Block
  | [], s => s
  | k :: ks, s => (unrounds ks s).xor k

end CertAuthority.Cipher.Aes
