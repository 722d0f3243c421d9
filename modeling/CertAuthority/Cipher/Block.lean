import CertAuthority.Octets

/-!
# Blocks of sixteen octets

The unit of the cipher is a block of sixteen octets, seen as four words of four. Octets whose number
is a multiple of sixteen are a list of blocks.
-/

namespace CertAuthority.Cipher

/-- Four octets. -/
structure Word where
  a : UInt8
  b : UInt8
  c : UInt8
  d : UInt8
deriving DecidableEq, Repr

namespace Word

def map (f : UInt8 → UInt8) (w : Word) : Word :=
  ⟨f w.a, f w.b, f w.c, f w.d⟩

def xor (v w : Word) : Word :=
  ⟨v.a ^^^ w.a, v.b ^^^ w.b, v.c ^^^ w.c, v.d ^^^ w.d⟩

/-- The word whose octets stand one place further left. -/
def rotate (w : Word) : Word :=
  ⟨w.b, w.c, w.d, w.a⟩

def octets (w : Word) : Octets :=
  [w.a, w.b, w.c, w.d]

/-- Takes a word from the front of octets. -/
def take? : Octets → Option (Word × Octets)
  | a :: b :: c :: d :: rest => some (⟨a, b, c, d⟩, rest)
  | _ => none

/-- A word is taken from the front of octets that start with it. -/
theorem take?_octets (w : Word) (rest : Octets) : take? (w.octets ++ rest) = some (w, rest) := by
  simp [octets, take?]

/-- Taking a word takes four octets. -/
theorem take?_length {bs rest : Octets} {w : Word} (h : take? bs = some (w, rest)) :
    bs.length = rest.length + 4 := by
  unfold take? at h
  split at h
  · simp only [Option.some.injEq, Prod.mk.injEq] at h
    simp [← h.2]
  · cases h

/-- Adding a word twice changes nothing. -/
theorem xor_xor (v w : Word) : (v.xor w).xor w = v := by
  simp only [xor, UInt8.xor_assoc, UInt8.xor_self, UInt8.xor_zero]

end Word

/-- Four words. -/
structure Block where
  w : Word
  x : Word
  y : Word
  z : Word
deriving DecidableEq, Repr

namespace Block

def size : Nat := 16

def map (f : Word → Word) (b : Block) : Block :=
  ⟨f b.w, f b.x, f b.y, f b.z⟩

def xor (b k : Block) : Block :=
  ⟨b.w.xor k.w, b.x.xor k.x, b.y.xor k.y, b.z.xor k.z⟩

def octets (b : Block) : Octets :=
  b.w.octets ++ (b.x.octets ++ (b.y.octets ++ b.z.octets))

/-- Takes a block from the front of octets. -/
def take? (bs : Octets) : Option (Block × Octets) := do
  let (w, bs) ← Word.take? bs
  let (x, bs) ← Word.take? bs
  let (y, bs) ← Word.take? bs
  let (z, bs) ← Word.take? bs
  return (⟨w, x, y, z⟩, bs)

/-- A block is taken from the front of octets that start with it. -/
theorem take?_octets (b : Block) (rest : Octets) : take? (b.octets ++ rest) = some (b, rest) := by
  simp [octets, take?, Word.take?_octets]

/-- Taking a block takes as many octets as it has. -/
theorem take?_length {bs rest : Octets} {b : Block} (h : take? bs = some (b, rest)) :
    bs.length = rest.length + size := by
  simp only [take?, bind, Option.bind_eq_some_iff, pure, Option.some.injEq, Prod.mk.injEq] at h
  obtain ⟨⟨_, _⟩, h₁, ⟨_, _⟩, h₂, ⟨_, _⟩, h₃, ⟨_, _⟩, h₄, -, rfl⟩ := h
  have := Word.take?_length h₁
  have := Word.take?_length h₂
  have := Word.take?_length h₃
  have := Word.take?_length h₄
  simp only [size] at *
  omega

/-- The block that octets are, if there are as many as it has. -/
def ofOctets? (bs : Octets) : Option Block :=
  match take? bs with
  | some (b, []) => some b
  | _ => none

/-- The blocks that octets consist of, if the last one is full. -/
def split? (bs : Octets) : Option (List Block) :=
  if bs.isEmpty then some []
  else
    match _h : take? bs with
    | none => none
    | some (b, rest) => (split? rest).map (b :: ·)
termination_by bs.length
decreasing_by
  have := take?_length _h
  simp only [size] at this
  omega

/-- The octets of blocks in a row. -/
def join (bs : List Block) : Octets :=
  bs.flatMap octets

/-- Adding a block twice changes nothing. -/
theorem xor_xor (b k : Block) : (b.xor k).xor k = b := by
  simp [xor, Word.xor_xor]

end Block

end CertAuthority.Cipher
