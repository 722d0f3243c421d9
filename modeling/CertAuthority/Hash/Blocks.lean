import CertAuthority.Octets

/-!
# Blocks of a hashed message

The hash functions of the SHA family read a message in blocks: the message is followed by one bit,
zeros and its length in bits, and the result is cut into blocks of one size and those into words.
-/

namespace CertAuthority.Hash

/-- Cuts octets into pieces of `size + 1` octets; the last one may be shorter. -/
def pieces (size : Nat) (bs : Octets) : List Octets :=
  match bs with
  | [] => []
  | b :: rest => (b :: rest.take size) :: pieces size (rest.drop size)
termination_by bs.length
decreasing_by
  simp only [List.length_drop, List.length_cons]
  omega

/-- A message filled to whole blocks of `block` octets, its length in bits in the last `width`. -/
def padded (block width : Nat) (message : Octets) : Octets :=
  let used := message.length + 1 + width
  message ++ 0x80 :: List.replicate ((block - used % block) % block) 0 ++
    Octets.fixed width (8 * message.length)

/-- The words of 32 bits that octets write. -/
def words32 (bs : Octets) : List UInt32 :=
  (pieces 3 bs).map fun w => UInt32.ofNat (Octets.toNat w)

/-- The words of 64 bits that octets write. -/
def words64 (bs : Octets) : List UInt64 :=
  (pieces 7 bs).map fun w => UInt64.ofNat (Octets.toNat w)

/-- The octets of words of 32 bits. -/
def octets32 (ws : List UInt32) : Octets :=
  ws.flatMap fun w => Octets.fixed 4 w.toNat

/-- The octets of words of 64 bits. -/
def octets64 (ws : List UInt64) : Octets :=
  ws.flatMap fun w => Octets.fixed 8 w.toNat

end CertAuthority.Hash
