import Mathlib.Data.FinEnum
import Mathlib.Data.Finite.Prod
import Mathlib.Data.Fintype.Card
import CertAuthority.Proofs.Cipher.Cbc

/-!
# What is decrypted was encrypted

There are finitely many blocks, so that encryption, which is undone by decryption, undoes decryption as well
(`Aes.encrypt_decrypt`). Hence octets are decrypted to a message exactly if they are its encryption
(`Cbc.decrypt?_eq_some_iff`), and nothing else is ever refused or accepted. The block before the first one is
added to the first block of the message and to nothing else: with another one the same octets are the encryption
of the message with the difference of the two added to its front (`Cbc.encrypt_eq_encrypt_iff`).
-/

namespace CertAuthority.Cipher

instance : Finite Word :=
  Finite.of_injective (fun w : Word => (w.a, w.b, w.c, w.d)) fun v w h => by
    cases v
    cases w
    simpa using h

instance : Finite Block :=
  Finite.of_injective (fun b : Block => (b.w, b.x, b.y, b.z)) fun b c h => by
    cases b
    cases c
    simpa using h

/-- Encryption undoes decryption, whatever the round keys. -/
theorem Aes.encrypt_decrypt (keys : List Block) (s : Block) : encrypt keys (decrypt keys s) = s := by
  -- A map of a finite type into itself with a left inverse is onto, so that this is a right inverse as well.
  have hleft : Function.LeftInverse (decrypt keys) (encrypt keys) := decrypt_encrypt keys
  exact hleft.rightInverse_of_surjective (Finite.surjective_of_injective hleft.injective) s

namespace Block

/-- A block that was taken from octets stood at their front. -/
lemma eq_of_take? {bs rest : Octets} {b : Block} (h : take? bs = some (b, rest)) : bs = b.octets ++ rest := by
  have hsize : size ≤ bs.length := by
    rw [take?_length h]
    exact Nat.le_add_left _ _
  obtain ⟨b', rest', htake, heq⟩ := exists_take? hsize
  rw [h] at htake
  cases htake
  exact heq

/-- A block that was read is written as the octets that it was read from. -/
lemma eq_of_ofOctets? {bs : Octets} {b : Block} (h : ofOctets? bs = some b) : bs = b.octets := by
  unfold ofOctets? at h
  split at h
  · rename_i htake
    cases h
    rw [eq_of_take? htake, List.append_nil]
  · cases h

/-- Octets that are cut into blocks are the octets of those blocks. -/
lemma eq_of_split? {bs : Octets} {blocks : List Block} (h : split? bs = some blocks) : join blocks = bs := by
  fun_induction split? bs generalizing blocks with
  | case1 bs hempty =>
    cases h
    exact (List.isEmpty_iff.1 hempty).symm
  | case2 => cases h
  | case3 bs _ b rest htake ih =>
    obtain ⟨tail, htail, rfl⟩ := Option.map_eq_some_iff.1 h
    rw [eq_of_take? htake, ← ih htail]
    rfl

/-- Blocks are told apart by their octets in a row. -/
lemma join_inj {bs cs : List Block} : join bs = join cs ↔ bs = cs :=
  Octets.written_inj split? (split?_join bs) (split?_join cs)

/-- The sum of three blocks does not depend on the brackets. -/
lemma xor_assoc (a b c : Block) : (a.xor b).xor c = a.xor (b.xor c) := by
  simp [xor, Word.xor, UInt8.xor_assoc]

/-- The sum of two blocks does not depend on their order. -/
lemma xor_comm (a b : Block) : a.xor b = b.xor a := by
  simp only [xor, Word.xor, UInt8.xor_comm]

/-- Adding a block twice changes nothing. -/
lemma xor_xor_self (b m : Block) : b.xor (b.xor m) = m := by
  rw [xor_comm b m, xor_comm b, xor_xor]

/-- Octets with a block added to their front. -/
def addTo (m : Block) (bs : Octets) : Octets :=
  List.zipWith (fun x y => y ^^^ x) m.octets bs ++ bs.drop size

/-- A block is added to the first block of octets and to nothing behind it. -/
lemma addTo_octets_append (m b : Block) (rest : Octets) :
    m.addTo (b.octets ++ rest) = (b.xor m).octets ++ rest :=
  rfl

/-- Octets that are the same after the first block differ by a block at their front. -/
lemma exists_addTo {bs cs : Octets} (hbs : size ≤ bs.length) (hcs : size ≤ cs.length)
    (h : bs.drop size = cs.drop size) : ∃ m : Block, cs = m.addTo bs := by
  obtain ⟨b, rest, -, rfl⟩ := exists_take? hbs
  obtain ⟨c, rest', -, rfl⟩ := exists_take? hcs
  have hrest : rest = rest' := h
  refine ⟨b.xor c, ?_⟩
  rw [addTo_octets_append, xor_xor_self, hrest]

end Block

/-- A key that was read is written as the octets that it was read from. -/
lemma Aes.Key.eq_of_ofOctets? {bs : Octets} {key : Aes.Key} (h : ofOctets? bs = some key) : bs = key.octets := by
  obtain ⟨⟨low, rest⟩, hlow, h⟩ := Option.bind_eq_some_iff.1 h
  obtain ⟨high, hhigh, h⟩ := Option.bind_eq_some_iff.1 h
  cases h
  rw [Block.eq_of_take? hlow, Block.eq_of_ofOctets? hhigh]
  rfl

/-- Keys are told apart by their octets. -/
lemma Aes.Key.octets_inj {k l : Aes.Key} : k.octets = l.octets ↔ k = l :=
  Octets.written_inj ofOctets? (ofOctets?_octets k) (ofOctets?_octets l)

namespace Cbc

/-- Chaining takes back the decryption of a chain where each block is encrypted to what it was decrypted from. -/
lemma chain_unchain {encrypt decrypt : Block → Block} (h : ∀ b, encrypt (decrypt b) = b) (previous : Block)
    (cs : List Block) : chain encrypt previous (unchain decrypt previous cs) = cs := by
  induction cs generalizing previous with
  | nil => rfl
  | cons c cs ih => simp [chain, unchain, h, ih, Block.xor_xor]

/-- Octets from which a padding can be taken off are padded. -/
lemma eq_pad_of_unpad? {bs message : Octets} {n : Nat} (hlength : bs.length = Block.size * n)
    (h : unpad? bs = some message) : bs = pad message := by
  obtain ⟨last, -, h⟩ := Option.bind_eq_some_iff.1 h
  dsimp only at h
  split at h
  · cases h
  · rename_i hrange
    split at h
    · rename_i hdrop
      cases h
      simp only [Bool.or_eq_true, decide_eq_true_eq, not_or, Nat.not_lt] at hrange
      have htail : bs.length - (bs.length - last.toNat) = last.toNat := by
        rw [← List.length_drop, hdrop, List.length_replicate]
      have hpadding : padding (bs.take (bs.length - last.toNat)) = last.toNat := by
        unfold padding Block.size at *
        rw [List.length_take]
        omega
      rw [pad, ← padding, hpadding, ← hdrop, List.take_append_drop]
    · cases h

/-- Octets are decrypted to a message exactly if they are its encryption. -/
theorem decrypt?_eq_some_iff {key : Aes.Key} {first : Block} {bs message : Octets} :
    decrypt? key first bs = some message ↔ bs = encrypt key first message := by
  constructor
  · intro h
    obtain ⟨cs, hsplit, hunpad⟩ := Option.bind_eq_some_iff.1 h
    have hpad := eq_pad_of_unpad? (Block.length_join _) hunpad
    rw [encrypt, ← hpad, Block.split?_join, Option.getD_some,
      chain_unchain (Aes.encrypt_decrypt key.roundKeys), Block.eq_of_split? hsplit]
  · rintro rfl
    exact decrypt?_encrypt key first message

/-- Under one key and one first block different octets are encrypted to different ones. -/
lemma encrypt_inj {key : Aes.Key} {first : Block} {bs cs : Octets} :
    encrypt key first bs = encrypt key first cs ↔ bs = cs :=
  Octets.written_inj (decrypt? key first) (decrypt?_encrypt key first bs) (decrypt?_encrypt key first cs)

/-- A padded message has a block. -/
lemma exists_cons_of_join_eq_pad {blocks : List Block} {bs : Octets} (h : Block.join blocks = pad bs) :
    ∃ b rest, blocks = b :: rest := by
  cases blocks with
  | nil =>
    have hlength := congrArg List.length h
    rw [Block.length_join, length_pad, List.length_nil, Nat.mul_zero, Nat.mul_succ, Block.size] at hlength
    omega
  | cons b rest => exact ⟨b, rest, rfl⟩

/-- Blocks that are encrypted alike after different blocks differ in the first one, by the difference of these. -/
lemma chain_eq_chain_iff {encrypt decrypt : Block → Block} (h : ∀ b, decrypt (encrypt b) = b)
    {first first' b b' : Block} {bs bs' : List Block} :
    chain encrypt first (b :: bs) = chain encrypt first' (b' :: bs') ↔
      b' = b.xor (first.xor first') ∧ bs' = bs := by
  constructor
  · intro heq
    rw [chain, chain, List.cons.injEq] at heq
    have hsame : b.xor first = b'.xor first' := by
      rw [← h (b.xor first), heq.1, h]
    -- The first encrypted blocks are the same, and the rest is chained to them.
    have hrest := heq.2
    rw [hsame] at hrest
    have htail := congrArg (unchain decrypt (encrypt (b'.xor first'))) hrest
    rw [unchain_chain h, unchain_chain h] at htail
    refine ⟨?_, htail.symm⟩
    rw [← Block.xor_assoc, hsame, Block.xor_xor]
  · rintro ⟨rfl, rfl⟩
    have hsame : (b.xor (first.xor first')).xor first' = b.xor first := by
      rw [← Block.xor_assoc, Block.xor_xor]
    rw [chain, chain, hsame]

/-- Octets are the encryption of two messages, after different blocks, exactly if the padded messages differ by
the difference of these at their front. -/
theorem encrypt_eq_encrypt_iff {key : Aes.Key} {first first' : Block} {bs bs' : Octets} :
    encrypt key first bs = encrypt key first' bs' ↔ pad bs' = (first.xor first').addTo (pad bs) := by
  obtain ⟨blocks, hblocks, hencrypt⟩ := exists_encrypt_eq key first bs
  obtain ⟨blocks', hblocks', hencrypt'⟩ := exists_encrypt_eq key first' bs'
  obtain ⟨b, rest, rfl⟩ := exists_cons_of_join_eq_pad hblocks
  obtain ⟨b', rest', rfl⟩ := exists_cons_of_join_eq_pad hblocks'
  have hfront : (first.xor first').addTo (Block.join (b :: rest)) =
      Block.join (b.xor (first.xor first') :: rest) :=
    Block.addTo_octets_append _ b (Block.join rest)
  rw [hencrypt, hencrypt', ← hblocks, ← hblocks', hfront, Block.join_inj, Block.join_inj,
    chain_eq_chain_iff (Aes.decrypt_encrypt _), List.cons.injEq]

/-- An octet in the first block of a message may be replaced without a change of what is encrypted, by a change of
the block before. -/
lemma exists_encrypt_eq_encrypt (key : Aes.Key) (first : Block) {front : Octets} (b c : UInt8) (back : Octets)
    (h : front.length < Block.size) :
    ∃ first', encrypt key first (front ++ b :: back) = encrypt key first' (front ++ c :: back) := by
  obtain ⟨tail, hpad⟩ : ∃ tail, ∀ d : UInt8, pad (front ++ d :: back) = front ++ d :: tail := by
    refine ⟨back ++ List.replicate (padding (front ++ b :: back)) (UInt8.ofNat (padding (front ++ b :: back))),
      fun d => ?_⟩
    have hpadding : padding (front ++ d :: back) = padding (front ++ b :: back) := by
      simp [padding]
    rw [pad, ← padding, hpadding, List.append_assoc, List.cons_append]
  have hsize : ∀ d : UInt8, Block.size ≤ (pad (front ++ d :: back)).length := by
    intro d
    rw [length_pad]
    exact Nat.le_mul_of_pos_right _ (Nat.succ_pos _)
  have hdrop : ∀ d : UInt8, (pad (front ++ d :: back)).drop Block.size =
      tail.drop (Block.size - (front.length + 1)) := by
    intro d
    have hfront : (front ++ [d]).length ≤ Block.size := by
      rw [List.length_append, List.length_singleton]
      exact h
    rw [hpad, List.append_cons, List.drop_append, List.drop_eq_nil_of_le hfront, List.nil_append,
      List.length_append, List.length_singleton]
  obtain ⟨m, hm⟩ := Block.exists_addTo (hsize b) (hsize c) ((hdrop b).trans (hdrop c).symm)
  refine ⟨first.xor m, encrypt_eq_encrypt_iff.2 ?_⟩
  rw [Block.xor_xor_self, hm]

end Cbc

end CertAuthority.Cipher
