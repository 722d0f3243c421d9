import CertAuthority.Der.Value
import CertAuthority.Proofs.Der.Value

/-!
# Integers are read as they were written

An integer is written in two's complement, in the fewest octets that leave room for its sign, and is read
again as the same integer (`signedValue_intContent`, `Tlv.toInt?_ofInt`). A natural number gets an octet of
zero in front where its highest bit would be taken for a sign, so it is read again however large it is
(`Tlv.toNat?_ofInt`).
-/

namespace CertAuthority.Der

/-- The shortest form leaves the highest bit of its first octet to the sign. -/
lemma exists_signedWidth (n : Nat) : ∃ w, signedWidth n = w + 1 ∧ n < 128 * 256 ^ w := by
  unfold signedWidth
  split
  · rename_i hn
    exact ⟨0, rfl, by omega⟩
  · refine ⟨_, rfl, ?_⟩
    have hlog : n < 2 ^ (n.log2 + 1) := Nat.lt_log2_self
    have hpow : 128 * 256 ^ ((n.log2 + 1) / 8) = 2 ^ (7 + 8 * ((n.log2 + 1) / 8)) := by
      rw [Nat.pow_add, Nat.pow_mul]
    rw [hpow]
    exact Nat.lt_of_lt_of_le hlog (Nat.pow_le_pow_right (by omega) (by omega))

/-- With its sign a number is as long as its double. -/
lemma signedWidth_eq {n : Nat} (h : n ≠ 0) : signedWidth n = Octets.byteLength (2 * n) := by
  have hdouble : 2 * n ≠ 0 := Nat.mul_ne_zero (by decide) h
  rw [signedWidth, if_neg h, Octets.byteLength, if_neg hdouble, Nat.log2_two_mul h]

/-- Octets that begin neither with zero nor with a set bit are the shortest form of a positive integer. -/
lemma intContent_toNat {b : UInt8} (hb : b ≠ 0) (hsign : b < 128) (bs : Octets) :
    intContent (Octets.toNat (b :: bs)) = b :: bs := by
  have hle := Octets.pow_le_toNat hb bs
  have hne : Octets.toNat (b :: bs) ≠ 0 := Nat.ne_of_gt (Nat.lt_of_lt_of_le (Nat.pow_pos (by decide)) hle)
  have hlt : 2 * Octets.toNat (b :: bs) < 256 ^ (bs.length + 1) := by
    have htail := Octets.toNat_lt bs
    have hhead : (b.toNat + 1) * 256 ^ bs.length ≤ 128 * 256 ^ bs.length :=
      Nat.mul_le_mul_right _ (UInt8.lt_iff_toNat_lt.1 hsign)
    rw [Nat.add_mul, Nat.one_mul] at hhead
    rw [Octets.toNat_cons, Nat.pow_succ]
    omega
  have hwidth : signedWidth (Octets.toNat (b :: bs)) = (b :: bs).length := by
    rw [signedWidth_eq hne]
    exact Octets.byteLength_eq (by omega) hlt
  change Octets.fixed _ _ = _
  rw [hwidth, Octets.fixed_toNat]

/-- Octets of a number stand for the number itself, or for one that is a whole range smaller if their highest
bit is set. -/
lemma signedValue_fixed {n w : Nat} (h : n < 256 ^ (w + 1)) :
    signedValue (Octets.fixed (w + 1) n) =
      if n < 128 * 256 ^ w then (n : Int) else (n : Int) - (256 ^ (w + 1) : Nat) := by
  have hpos : 0 < 256 ^ w := Nat.pow_pos (by omega)
  have hn : Octets.toNat (Octets.fixed (w + 1) n) = n := by
    rw [Octets.toNat_fixed, Nat.mod_eq_of_lt h]
  have hfirst : n / 256 ^ w < 256 := by
    rw [Nat.div_lt_iff_lt_mul hpos, Nat.mul_comm, ← Nat.pow_succ]
    exact h
  have hsign : UInt8.ofNat (n / 256 ^ w) < 128 ↔ n < 128 * 256 ^ w := by
    rw [UInt8.lt_iff_toNat_lt, Octets.toNat_ofNat_octet hfirst]
    exact Nat.div_lt_iff_lt_mul hpos
  rw [Octets.fixed] at hn ⊢
  simp only [Nat.pow_eq] at hn ⊢
  simp only [signedValue, hn, hsign, Octets.length_fixed, Nat.pow_eq]

/-- An integer is what its shortest form stands for. -/
theorem signedValue_intContent (i : Int) : signedValue (intContent i) = i := by
  cases i with
  | ofNat n =>
    obtain ⟨w, hw, hlt⟩ := exists_signedWidth n
    have hrange : n < 256 ^ (w + 1) := by
      rw [Nat.pow_succ]
      omega
    rw [intContent, hw, signedValue_fixed hrange, if_pos hlt]
    rfl
  | negSucc n =>
    obtain ⟨w, hw, hlt⟩ := exists_signedWidth n
    have hrange : 256 ^ (w + 1) = 256 * 256 ^ w := by rw [Nat.pow_succ, Nat.mul_comm]
    -- the complement of a number that leaves the highest bit clear has it set
    have hset : ¬ 256 ^ (w + 1) - 1 - n < 128 * 256 ^ w := by omega
    rw [intContent, hw, Nat.pow_eq, signedValue_fixed (by omega), if_neg hset]
    omega

/-- An integer is read again from its content. -/
lemma contentInt?_intContent (i : Int) : contentInt? (intContent i) = some i := by
  simp [contentInt?, signedValue_intContent]

/-- A number that leaves the highest bit of some octets to the sign needs no more of them. -/
lemma signedWidth_le {n w : Nat} (h : n < 128 * 256 ^ w) : signedWidth n ≤ w + 1 := by
  by_cases hn : n = 0
  · rw [hn]
    exact Nat.le_add_left 1 w
  · rw [signedWidth_eq hn]
    apply Octets.byteLength_le
    rw [Nat.pow_succ]
    omega

/-- Octets that stand for an integer are not shorter than its shortest form. -/
lemma length_intContent_le {bs : Octets} (h : bs ≠ []) : (intContent (signedValue bs)).length ≤ bs.length := by
  cases bs with
  | nil => exact absurd rfl h
  | cons b rest =>
    have hrest := Octets.toNat_lt rest
    have hcons := Octets.toNat_cons b rest
    have hrange : 256 ^ (rest.length + 1) = 256 * 256 ^ rest.length := Nat.pow_succ'
    rw [signedValue]
    split
    · rename_i hsign
      have hhead : (b.toNat + 1) * 256 ^ rest.length ≤ 128 * 256 ^ rest.length :=
        Nat.mul_le_mul_right _ (UInt8.lt_iff_toNat_lt.1 hsign)
      rw [Nat.add_mul, Nat.one_mul] at hhead
      rw [← Int.ofNat_eq_natCast, intContent, Octets.length_fixed]
      exact signedWidth_le (by omega)
    · rename_i hsign
      have hhead : 128 * 256 ^ rest.length ≤ b.toNat * 256 ^ rest.length :=
        Nat.mul_le_mul_right _ (UInt8.le_iff_toNat_le.1 (UInt8.not_lt.1 hsign))
      have hlt := Octets.toNat_lt (b :: rest)
      rw [List.length_cons] at hlt
      have hneg : (Octets.toNat (b :: rest) : Int) - (Nat.pow 256 (rest.length + 1) : Int) =
          Int.negSucc (256 ^ (rest.length + 1) - 1 - Octets.toNat (b :: rest)) := by
        rw [Nat.pow_eq]
        omega
      rw [hneg, intContent, Octets.length_fixed]
      exact signedWidth_le (by omega)

/-- Octets stand for an integer, and no others that do so are shorter. -/
structure IsShortestInt (i : Int) (bs : Octets) : Prop where
  nonempty : bs ≠ []
  value : signedValue bs = i
  shortest : ∀ other, other ≠ [] → signedValue other = i → bs.length ≤ other.length

/-- Every integer has an octet. -/
lemma intContent_ne_nil (i : Int) : intContent i ≠ [] := by
  have hfixed (n m : Nat) : Octets.fixed (signedWidth n) m ≠ [] := by
    obtain ⟨w, hw, -⟩ := exists_signedWidth n
    rw [hw]
    exact List.cons_ne_nil _ _
  cases i with
  | ofNat n => exact hfixed n _
  | negSucc n => exact hfixed n _

/-- An integer is written in the shortest form. -/
lemma isShortestInt_intContent (i : Int) : IsShortestInt i (intContent i) := by
  refine ⟨intContent_ne_nil i, signedValue_intContent i, ?_⟩
  rintro other hother rfl
  exact length_intContent_le hother

namespace Tlv

/-- An integer is read again. -/
@[simp] lemma toInt?_ofInt (i : Int) : (ofInt i).toInt? = some i := by
  simp [toInt?, ofInt, content?, contentInt?_intContent]

/-- A natural number is read again, also where it needs an octet for its sign. -/
@[simp] lemma toNat?_ofInt (n : Nat) : (ofInt n).toNat? = some n := by
  rw [toNat?, toInt?_ofInt]
  rfl

/-- An integer that was read has the form that it was read from. -/
lemma eq_ofInt_of_toInt? {t : Tlv} {i : Int} (h : t.toInt? = some i) : t = ofInt i := by
  obtain ⟨bs, hcontent, hi⟩ := Option.bind_eq_some_iff.1 h
  rw [eq_of_content? hcontent, ofInt]
  simp only [contentInt?, Option.ite_none_right_eq_some, Option.some.injEq] at hi
  obtain ⟨hshortest, rfl⟩ := hi
  rw [hshortest]

/-- A number that was read has the form that it was read from. -/
lemma eq_ofInt_of_toNat? {t : Tlv} {n : Nat} (h : t.toNat? = some n) : t = ofInt n := by
  obtain ⟨i, hint, hi⟩ := Option.bind_eq_some_iff.1 h
  rw [eq_ofInt_of_toInt? hint]
  cases i with
  | ofNat m =>
    cases hi
    rfl
  | negSucc m => cases hi

end Tlv

end CertAuthority.Der
