import Mathlib.Data.List.Nodup
import Mathlib.Tactic.Lemma
import CertAuthority.Cipher.Aes

/-!
# Decryption undoes encryption

Each step of a round is undone by the step that decryption has for it. For the substitution this is a search
over the octets. For the mixing of columns no search is needed: doubling is linear, so that mixing twice adds
to each octet four times the sum of itself and the octet across, and mixing twice more takes that away again
(`unmixColumn_mixColumn`). The rounds are undone from the last to the first (`decrypt_encrypt`).
-/

namespace CertAuthority.Cipher

/-- A block is read again from its octets. -/
lemma Block.ofOctets?_octets (b : Block) : Block.ofOctets? b.octets = some b := by
  have htake : Block.take? b.octets = some (b, []) := by
    rw [← List.append_nil b.octets]
    exact Block.take?_octets b []
  rw [Block.ofOctets?, htake]

namespace Aes

/-! ### Octets -/

/-- Whether numbers are distinct, and distinct from those whose bits are set. -/
def areNew (seen : Nat) : List Nat → Bool
  | [] => true
  | n :: ns => !seen.testBit n && areNew (seen ||| 1 <<< n) ns

/-- Numbers that pass are distinct and none of them was seen before. -/
lemma nodup_of_areNew {seen : Nat} {ns : List Nat} (h : areNew seen ns = true) :
    ns.Nodup ∧ ∀ n ∈ ns, seen.testBit n = false := by
  induction ns generalizing seen with
  | nil => exact ⟨List.nodup_nil, nofun⟩
  | cons n ns ih =>
    rw [areNew, Bool.and_eq_true, Bool.not_eq_true'] at h
    obtain ⟨hn, hns⟩ := h
    obtain ⟨hdistinct, hunseen⟩ := ih hns
    simp only [Nat.testBit_or, Bool.or_eq_false_iff] at hunseen
    refine ⟨List.nodup_cons.2 ⟨fun hmem => ?_, hdistinct⟩, ?_⟩
    · have hbit := (hunseen n hmem).2
      simp at hbit
    · intro m hm
      obtain rfl | hm := List.mem_cons.1 hm
      · exact hn
      · exact (hunseen m hm).1

/-- No two octets are substituted by the same one. -/
lemma nodup_substitution : substitution.toList.Nodup := by
  have hnew : areNew 0 (substitution.toList.map UInt8.toNat) = true := by decide +kernel
  exact List.Nodup.of_map _ (nodup_of_areNew hnew).1

/-- The preimage of an octet is its place in the table of the substitution. -/
lemma unsubstitute_eq (y : UInt8) : unsubstitute y = UInt8.ofNat (substitution.toList.idxOf y) := by
  have hlength : y.toNat < preimages.size := by
    rw [preimages, List.size_toArray, List.length_map, List.length_range]
    exact y.toNat_lt
  rw [unsubstitute, Array.getD_eq_getD_getElem?, Array.getElem?_eq_getElem hlength, Option.getD_some]
  simp only [preimages, List.getElem_toArray, List.getElem_map, List.getElem_range, UInt8.ofNat_toNat]
  rfl

/-- The inverse substitution takes the substitution back. -/
lemma unsubstitute_substitute (x : UInt8) : unsubstitute (substitute x) = x := by
  have hlength : substitution.toList.length = 256 := by decide +kernel
  have hx : x.toNat < substitution.toList.length := by
    rw [hlength]
    exact x.toNat_lt
  have hsubstitute : substitute x = substitution.toList[x.toNat] := by
    rw [substitute, Array.getD_eq_getD_getElem?, ← Array.getElem?_toList, List.getElem?_eq_getElem hx,
      Option.getD_some]
  rw [unsubstitute_eq, hsubstitute, nodup_substitution.idxOf_getElem, UInt8.ofNat_toNat]

/-- What doubling adds to an octet that is moved to the left: the reduction, if a bit falls out. -/
def reduction (x : UInt8) : UInt8 :=
  if x.toBitVec.msb then 0x1B else 0

/-- Doubling shifts and takes the highest bit back into the field. -/
lemma double_eq (x : UInt8) : double x = (x <<< 1) ^^^ reduction x := by
  have hmsb : x.toBitVec.msb = true ↔ ¬ x < 0x80 := by
    rw [BitVec.msb_eq_decide, decide_eq_true_iff, UInt8.lt_iff_toNat_lt]
    exact Nat.not_lt.symm
  unfold double reduction
  by_cases hx : x < 0x80
  · rw [if_pos hx, if_neg (fun h => hmsb.1 h hx), UInt8.xor_zero]
  · rw [if_neg hx, if_pos (hmsb.2 hx)]

/-- What is taken back is additive. -/
lemma reduction_xor (x y : UInt8) : reduction (x ^^^ y) = reduction x ^^^ reduction y := by
  unfold reduction
  rw [UInt8.toBitVec_xor, BitVec.msb_xor]
  cases x.toBitVec.msb <;> cases y.toBitVec.msb <;> rfl

/-- Doubling is linear. -/
lemma double_xor (x y : UInt8) : double (x ^^^ y) = double x ^^^ double y := by
  rw [double_eq, double_eq, double_eq, reduction_xor, UInt8.shiftLeft_xor]
  ac_rfl

/-- An octet that is added twice is not there. -/
lemma xor_xor_cancel (x y : UInt8) : x ^^^ (x ^^^ y) = y := by
  rw [← UInt8.xor_assoc, UInt8.xor_self, UInt8.zero_xor]

/-- In a sum of three octets the first two may be exchanged. -/
lemma xor_left_comm (x y z : UInt8) : x ^^^ (y ^^^ z) = y ^^^ (x ^^^ z) := by
  rw [← UInt8.xor_assoc, UInt8.xor_comm x y, UInt8.xor_assoc]

/-! ### Columns -/

/-- What an octet of a column becomes by mixing, from the octets of the column in turn, itself first. -/
def mixed (a b c d : UInt8) : UInt8 :=
  double (a ^^^ b) ^^^ b ^^^ c ^^^ d

/-- Mixing twice adds to an octet four times the sum of itself and the octet across. -/
lemma mixed_mixed (a b c d : UInt8) :
    mixed (mixed a b c d) (mixed b c d a) (mixed c d a b) (mixed d a b c) = double (double (a ^^^ c)) ^^^ a := by
  simp only [mixed, double_xor]
  -- the terms in sorted order; those that occur twice stand side by side and vanish
  simp only [UInt8.xor_assoc, UInt8.xor_comm, xor_left_comm, xor_xor_cancel]

/-- Mixing a column twice does the same to each of its octets. -/
lemma mixColumn_mixColumn (v : Word) : mixColumn (mixColumn v) =
    ⟨double (double (v.a ^^^ v.c)) ^^^ v.a, double (double (v.b ^^^ v.d)) ^^^ v.b,
     double (double (v.a ^^^ v.c)) ^^^ v.c, double (double (v.b ^^^ v.d)) ^^^ v.d⟩ := by
  rw [← mixed_mixed v.a v.b v.c v.d, ← mixed_mixed v.b v.c v.d v.a, UInt8.xor_comm v.a v.c,
    ← mixed_mixed v.c v.d v.a v.b, UInt8.xor_comm v.b v.d, ← mixed_mixed v.d v.a v.b v.c]
  rfl

/-- The inverse mixing takes the mixing of a column back. -/
lemma unmixColumn_mixColumn (v : Word) : unmixColumn (mixColumn v) = v := by
  unfold unmixColumn
  rw [mixColumn_mixColumn (mixColumn (mixColumn v)), mixColumn_mixColumn v]
  -- the octets of a column and those across have the same sum as before
  simp only [double_xor]
  simp only [UInt8.xor_assoc, UInt8.xor_comm, xor_left_comm, UInt8.xor_self, UInt8.xor_zero]

/-! ### Rounds -/

/-- The inverse round step takes substitution and shifting back. -/
lemma unscramble_scramble (s : Block) : unscramble (scramble s) = s := by
  rw [unscramble, scramble, unshiftRows_shiftRows]
  simp only [Block.map, Word.map, unsubstitute_substitute]

/-- The inverse mixing takes the mixing of all columns back. -/
lemma unmix_mix (s : Block) : (s.map mixColumn).map unmixColumn = s := by
  simp only [Block.map, unmixColumn_mixColumn]

/-- The rounds are undone from the last to the first. -/
lemma unrounds_rounds (keys : List Block) (s : Block) : unrounds keys (rounds keys s) = s := by
  induction keys generalizing s with
  | nil => rfl
  | cons k ks ih =>
    cases ks with
    | nil =>
      show unscramble (((scramble s).xor k).xor k) = s
      rw [Block.xor_xor, unscramble_scramble]
    | cons l ks =>
      show unscramble (((unrounds (l :: ks)
        (rounds (l :: ks) (((scramble s).map mixColumn).xor k))).xor k).map unmixColumn) = s
      rw [ih, Block.xor_xor, unmix_mix, unscramble_scramble]

/-- Decryption undoes encryption, whatever the round keys. -/
theorem decrypt_encrypt (keys : List Block) (s : Block) : decrypt keys (encrypt keys s) = s := by
  cases keys with
  | nil => rfl
  | cons k ks => rw [encrypt, decrypt, unrounds_rounds, Block.xor_xor]

/-! ### Keys -/

/-- A key has 32 octets. -/
lemma Key.length_octets (k : Key) : k.octets.length = Key.size :=
  rfl

/-- A key is read again from its octets. -/
lemma Key.ofOctets?_octets (k : Key) : ofOctets? k.octets = some k := by
  have hlow : Block.take? (k.low.octets ++ k.high.octets) = some (k.low, k.high.octets) :=
    Block.take?_octets k.low k.high.octets
  rw [ofOctets?, octets, hlow]
  simp [Block.ofOctets?_octets]

end Aes

end CertAuthority.Cipher
