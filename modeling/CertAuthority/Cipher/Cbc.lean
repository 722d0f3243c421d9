import CertAuthority.Cipher.Aes

/-!
# Chained blocks

Each block of a message is added to the encryption of the block before it and then encrypted; the
first one is added to a drawn block. The message is padded to whole blocks: at least one octet is
added, and every added octet says how many there are.
-/

namespace CertAuthority.Cipher.Cbc

/-- Encrypts blocks, each together with the one before. -/
def chain (encrypt : Block → Block) (previous : Block) : List Block → List Block
  | [] => []
  | b :: bs =>
    let c := encrypt (b.xor previous)
    c :: chain encrypt c bs

/-- Takes the chaining back: each block is decrypted and added to the one that was encrypted before it. -/
def unchain (decrypt : Block → Block) (previous : Block) : List Block → List Block
  | [] => []
  | c :: cs => (decrypt c).xor previous :: unchain decrypt c cs

/-- Unchaining takes the chaining back where each block is decrypted to what it was encrypted from. -/
theorem unchain_chain {encrypt decrypt : Block → Block} (h : ∀ b, decrypt (encrypt b) = b)
    (previous : Block) (bs : List Block) :
    unchain decrypt previous (chain encrypt previous bs) = bs := by
  induction bs generalizing previous with
  | nil => rfl
  | cons b bs ih => simp [chain, unchain, h, ih, Block.xor_xor]

/-- Fills the last block up with octets that say how many of them there are. -/
def pad (bs : Octets) : Octets :=
  let n := Block.size - bs.length % Block.size
  bs ++ List.replicate n (UInt8.ofNat n)

/-- Takes the octets away that fill the last block up, if they all say how many they are. -/
def unpad? (bs : Octets) : Option Octets := do
  let n := (← bs.getLast?).toNat
  let kept := bs.length - n
  if n = 0 || Block.size < n then none
  else if bs.drop kept = List.replicate n (UInt8.ofNat n) then some (bs.take kept)
  else none

/-- Encrypts octets under a key and a drawn first block. -/
def encrypt (key : Aes.Key) (first : Block) (bs : Octets) : Octets :=
  let keys := key.roundKeys
  Block.join (chain (Aes.encrypt keys) first ((Block.split? (pad bs)).getD []))

/-- Decrypts octets under a key and a first block. -/
def decrypt? (key : Aes.Key) (first : Block) (bs : Octets) : Option Octets := do
  let keys := key.roundKeys
  unpad? (Block.join (unchain (Aes.decrypt keys) first (← Block.split? bs)))

end CertAuthority.Cipher.Cbc
