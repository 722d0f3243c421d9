import Mathlib.Data.List.Basic
import CertAuthority.Cipher.Cbc
import CertAuthority.Proofs.Cipher.Aes
import CertAuthority.Proofs.Octets

/-!
# Octets are decrypted as they were encrypted

A message is padded to whole blocks, which are chained and encrypted; whatever its length, as many octets are
taken off again as were added, and the message comes back (`decrypt?_encrypt`).
-/

namespace CertAuthority.Cipher

/-- Four octets or more begin with a word. -/
lemma Word.exists_append (bs : Octets) (h : 4 ≤ bs.length) :
    ∃ w rest, bs = octets w ++ rest ∧ bs.length = 4 + rest.length := by
  match bs, h with
  | a :: b :: c :: d :: rest, _ => exact ⟨⟨a, b, c, d⟩, rest, rfl, by simp only [List.length_cons]; omega⟩

namespace Block

/-- A block has as many octets as its size says. -/
lemma length_octets (b : Block) : b.octets.length = size :=
  rfl

/-- Blocks in a row have as many octets as all of them. -/
lemma length_join (bs : List Block) : (join bs).length = size * bs.length := by
  induction bs with
  | nil => rfl
  | cons b bs ih =>
    rw [join, List.flatMap_cons, List.length_append, length_octets, ← join, ih, List.length_cons,
      Nat.mul_succ, Nat.add_comm]

/-- A block can be taken from sixteen octets or more. -/
lemma exists_take? {bs : Octets} (h : size ≤ bs.length) :
    ∃ b rest, take? bs = some (b, rest) ∧ bs = b.octets ++ rest := by
  unfold size at h
  obtain ⟨w, bs, rfl, hw⟩ := Word.exists_append bs (by omega)
  obtain ⟨x, bs, rfl, hx⟩ := Word.exists_append bs (by omega)
  obtain ⟨y, bs, rfl, hy⟩ := Word.exists_append bs (by omega)
  obtain ⟨z, rest, rfl, -⟩ := Word.exists_append bs (by omega)
  have hjoined : w.octets ++ (x.octets ++ (y.octets ++ (z.octets ++ rest))) = octets ⟨w, x, y, z⟩ ++ rest := by
    simp only [octets, List.append_assoc]
  rw [hjoined]
  exact ⟨⟨w, x, y, z⟩, rest, take?_octets _ rest, rfl⟩

/-- Blocks in a row are split again. -/
lemma split?_join (bs : List Block) : split? (join bs) = some bs := by
  induction bs with
  | nil => simp [join, split?]
  | cons b bs ih =>
    have htake : take? (join (b :: bs)) = some (b, join bs) := take?_octets b (join bs)
    rw [split?, if_neg (by simp [join, octets, Word.octets])]
    split
    · rename_i hnone
      rw [htake] at hnone
      cases hnone
    · rename_i b' rest hsome
      rw [htake] at hsome
      cases hsome
      rw [ih]
      rfl

/-- As many octets as make whole blocks are the octets of those blocks. -/
lemma exists_join_eq (n : Nat) : ∀ bs : Octets, bs.length = size * n → ∃ blocks, join blocks = bs := by
  induction n with
  | zero =>
    intro bs h
    exact ⟨[], (List.length_eq_zero_iff.1 h).symm⟩
  | succ n ih =>
    intro bs h
    have hsize : size ≤ bs.length := by
      rw [h]
      exact Nat.le_mul_of_pos_right _ n.succ_pos
    obtain ⟨b, rest, -, rfl⟩ := exists_take? hsize
    rw [List.length_append, length_octets] at h
    obtain ⟨blocks, rfl⟩ := ih rest (by rw [Nat.mul_succ] at h; omega)
    exact ⟨b :: blocks, rfl⟩

end Block

namespace Cbc

/-- How many octets are added to a message: at least one and at most a block. -/
def padding (bs : Octets) : Nat :=
  Block.size - bs.length % Block.size

/-- The padding has between one octet and a block, and fills the last block up. -/
lemma padding_spec (bs : Octets) : 0 < padding bs ∧ padding bs ≤ Block.size ∧
    bs.length + padding bs = Block.size * (bs.length / Block.size + 1) := by
  unfold padding Block.size
  omega

/-- A padded message has whole blocks. -/
lemma length_pad (bs : Octets) : (pad bs).length = Block.size * (bs.length / Block.size + 1) := by
  rw [pad, List.length_append, List.length_replicate]
  exact (padding_spec bs).2.2

/-- The padding is taken off again: the last octet says how much of it there is. -/
lemma unpad?_pad (bs : Octets) : unpad? (pad bs) = some bs := by
  obtain ⟨hpos, hle, -⟩ := padding_spec bs
  have hpad : pad bs = bs ++ List.replicate (padding bs) (UInt8.ofNat (padding bs)) := rfl
  have hlast : (pad bs).getLast? = some (UInt8.ofNat (padding bs)) := by
    rw [hpad, List.getLast?_append, List.getLast?_replicate, if_neg (by omega)]
    rfl
  have hn : (UInt8.ofNat (padding bs)).toNat = padding bs := by
    unfold Block.size at hle
    exact Octets.toNat_ofNat_octet (by omega)
  have hkept : (pad bs).length - padding bs = bs.length := by
    rw [hpad, List.length_append, List.length_replicate, Nat.add_sub_cancel]
  have hsize : ¬ (padding bs = 0 || decide (Block.size < padding bs)) = true := by
    simp only [Bool.or_eq_true, decide_eq_true_eq]
    omega
  simp only [unpad?, hlast, Option.bind_eq_bind, Option.bind_some, hn, hkept, if_neg hsize]
  rw [hpad, List.drop_left, if_pos rfl, List.take_left]

/-- Chaining keeps the number of blocks. -/
lemma length_chain (encrypt : Block → Block) (previous : Block) (bs : List Block) :
    (chain encrypt previous bs).length = bs.length := by
  induction bs generalizing previous with
  | nil => rfl
  | cons b bs ih => rw [chain, List.length_cons, ih, List.length_cons]

variable {key : Aes.Key} {first : Block}

/-- A padded message is the octets of blocks, and these are encrypted in a chain. -/
lemma exists_encrypt_eq (key : Aes.Key) (first : Block) (bs : Octets) : ∃ blocks,
    Block.join blocks = pad bs ∧
      encrypt key first bs = Block.join (chain (Aes.encrypt key.roundKeys) first blocks) := by
  obtain ⟨blocks, hblocks⟩ := Block.exists_join_eq _ _ (length_pad bs)
  refine ⟨blocks, hblocks, ?_⟩
  rw [encrypt, ← hblocks, Block.split?_join, Option.getD_some]

/-- The encrypted octets have one block more than there are full blocks in the message. -/
lemma length_encrypt (key : Aes.Key) (first : Block) (bs : Octets) :
    (encrypt key first bs).length = Block.size * (bs.length / Block.size + 1) := by
  obtain ⟨blocks, hblocks, hencrypt⟩ := exists_encrypt_eq key first bs
  rw [hencrypt, Block.length_join, length_chain, ← Block.length_join, hblocks, length_pad]

/-- What was encrypted is decrypted, whatever the key, the drawn block and the length of the message. -/
theorem decrypt?_encrypt (key : Aes.Key) (first : Block) (bs : Octets) :
    decrypt? key first (encrypt key first bs) = some bs := by
  obtain ⟨blocks, hblocks, hencrypt⟩ := exists_encrypt_eq key first bs
  have hunchain := unchain_chain (Aes.decrypt_encrypt key.roundKeys) first blocks
  rw [hencrypt]
  simp only [decrypt?, Block.split?_join, Option.bind_eq_bind, Option.bind_some, hunchain, hblocks]
  exact unpad?_pad bs

end Cbc

end CertAuthority.Cipher
