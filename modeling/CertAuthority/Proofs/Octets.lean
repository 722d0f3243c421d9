import Mathlib.Algebra.Group.Nat.Defs
import Mathlib.Tactic.Lemma
import CertAuthority.Octets

/-!
# Numbers in octets

A number that is written in octets is read back up to their range (`toNat_fixed`), and octets are those of
the number that they write (`fixed_toNat`). The shortest form of a number is long enough for it and no
longer: `toNat_ofNat` reads it back and `byteLength_le` bounds its length by that of any other form.
-/

namespace CertAuthority.Octets

/-- Values that are read back from their octets are the same if their octets are. -/
lemma written_inj {α : Type} {write : α → Octets} (read : Octets → Option α) {a b : α}
    (ha : read (write a) = some a) (hb : read (write b) = some b) : write a = write b ↔ a = b := by
  refine ⟨fun h => ?_, congrArg write⟩
  rw [h, hb, Option.some.injEq] at ha
  exact ha.symm

/-- Reading octets after others adds them as lower digits. -/
lemma toNat_foldl (bs : Octets) (n : Nat) :
    bs.foldl (fun n b => n * 256 + b.toNat) n = n * 256 ^ bs.length + toNat bs := by
  induction bs generalizing n with
  | nil => simp [toNat]
  | cons b bs ih =>
    have h : toNat (b :: bs) = b.toNat * 256 ^ bs.length + toNat bs := by
      rw [toNat, List.foldl_cons, ih]
      simp
    rw [List.foldl_cons, ih, h, List.length_cons, Nat.pow_succ]
    grind

/-- The first octet is the highest digit. -/
lemma toNat_cons (b : UInt8) (bs : Octets) :
    toNat (b :: bs) = b.toNat * 256 ^ bs.length + toNat bs := by
  rw [toNat, List.foldl_cons, toNat_foldl]
  simp

/-- Writing the low octets of a number and reading them back gives the number modulo their range. -/
lemma toNat_fixed (w n : Nat) : toNat (fixed w n) = n % 256 ^ w := by
  induction w with
  | zero => simp [fixed, toNat, Nat.mod_one]
  | succ w ih =>
    rw [fixed, toNat_cons, ih, length_fixed, Nat.pow_succ, Nat.mod_mul]
    simp [Nat.mul_comm, Nat.add_comm]

/-- An octet holds a number below 256 as it is. -/
lemma toNat_ofNat_octet {n : Nat} (h : n < 256) : (UInt8.ofNat n).toNat = n := by
  rw [UInt8.toNat_ofNat']
  exact Nat.mod_eq_of_lt h

/-- A number is below the range of as many octets as its shortest form has. -/
lemma lt_pow_byteLength (n : Nat) : n < 256 ^ byteLength n := by
  unfold byteLength
  split
  · omega
  · have h : n < 2 ^ (n.log2 + 1) := Nat.lt_log2_self
    have e : (256 : Nat) ^ (n.log2 / 8 + 1) = 2 ^ (8 * (n.log2 / 8 + 1)) := by
      rw [Nat.pow_mul]
    rw [e]
    exact Nat.lt_of_lt_of_le h (Nat.pow_le_pow_right (by omega) (by omega))

/-- No form of a number is shorter than its shortest form. -/
lemma byteLength_le {n w : Nat} (h : n < 256 ^ w) : byteLength n ≤ w := by
  unfold byteLength
  split
  · omega
  · rename_i hn
    have e : (256 : Nat) ^ w = 2 ^ (8 * w) := by rw [Nat.pow_mul]
    rw [e] at h
    have hl := (Nat.log2_lt hn).2 h
    omega

/-- The shortest form has as many octets as `byteLength` says. -/
@[simp] lemma length_ofNat (n : Nat) : (ofNat n).length = byteLength n :=
  length_fixed _ _

/-- As many octets as the shortest form has are that form, whatever follows. -/
lemma take_byteLength (n : Nat) (rest : Octets) : (ofNat n ++ rest).take (byteLength n) = ofNat n := by
  rw [← length_ofNat n, List.take_left]

/-- After as many octets as the shortest form has comes what follows it. -/
lemma drop_byteLength (n : Nat) (rest : Octets) : (ofNat n ++ rest).drop (byteLength n) = rest := by
  rw [← length_ofNat n, List.drop_left]

/-- The shortest form of a number is read back. -/
@[simp] lemma toNat_ofNat (n : Nat) : toNat (ofNat n) = n := by
  rw [ofNat, toNat_fixed]
  exact Nat.mod_eq_of_lt (lt_pow_byteLength n)

/-- Octets write a number below the power of 256 that they have places for. -/
lemma toNat_lt (bs : Octets) : toNat bs < 256 ^ bs.length := by
  induction bs with
  | nil => exact Nat.zero_lt_one
  | cons b bs ih =>
    have hb : (b.toNat + 1) * 256 ^ bs.length ≤ 256 * 256 ^ bs.length :=
      Nat.mul_le_mul_right _ b.toNat_lt
    rw [toNat_cons, List.length_cons, Nat.pow_succ, Nat.mul_comm (256 ^ bs.length)]
    rw [Nat.add_mul, Nat.one_mul] at hb
    omega

/-- Octets of one length that write the same number are the same. -/
lemma eq_of_toNat {as bs : Octets} (hlength : as.length = bs.length) (h : toNat as = toNat bs) :
    as = bs := by
  induction as generalizing bs with
  | nil => exact (List.length_eq_zero_iff.1 hlength.symm).symm
  | cons a as ih =>
    cases bs with
    | nil => cases hlength
    | cons b bs =>
      have htail : as.length = bs.length := Nat.succ.inj hlength
      have has := toNat_lt as
      have hbs := toNat_lt bs
      have hpos : 0 < 256 ^ bs.length := Nat.pow_pos (by omega)
      rw [toNat_cons, toNat_cons, htail] at h
      rw [htail] at has
      have hhead : a.toNat = b.toNat := by
        have hdiv := congrArg (· / 256 ^ bs.length) h
        simpa only [Nat.mul_comm _ (256 ^ bs.length), Nat.mul_add_div hpos, Nat.div_eq_of_lt has,
          Nat.div_eq_of_lt hbs, Nat.add_zero] using hdiv
      rw [UInt8.toNat_inj.1 hhead, ih htail (by rw [hhead] at h; omega)]

/-- Octets are those of the number that they write. -/
lemma fixed_toNat (bs : Octets) : fixed bs.length (toNat bs) = bs := by
  apply eq_of_toNat (length_fixed _ _)
  rw [toNat_fixed, Nat.mod_eq_of_lt (toNat_lt bs)]

/-- The shortest form of a number other than zero has no octets to spare. -/
lemma pow_byteLength_le {n : Nat} (h : n ≠ 0) : 256 ^ (byteLength n - 1) ≤ n := by
  refine Nat.le_of_not_lt fun hlt => ?_
  have hle := byteLength_le hlt
  have hpos : 0 < byteLength n := by
    unfold byteLength
    rw [if_neg h]
    exact Nat.succ_pos _
  omega

/-- The range of a number says how many octets its shortest form has. -/
lemma byteLength_eq {n w : Nat} (hle : 256 ^ w ≤ n) (hlt : n < 256 ^ (w + 1)) : byteLength n = w + 1 := by
  apply Nat.le_antisymm (byteLength_le hlt)
  have h : 256 ^ w < 256 ^ byteLength n := Nat.lt_of_le_of_lt hle (lt_pow_byteLength n)
  exact (Nat.pow_lt_pow_iff_right (by decide)).1 h

/-- A number whose first octet is not zero is not below the range of the others. -/
lemma pow_le_toNat {b : UInt8} (hb : b ≠ 0) (bs : Octets) : 256 ^ bs.length ≤ toNat (b :: bs) := by
  have hpos : 1 ≤ b.toNat := Nat.pos_of_ne_zero fun h => hb (UInt8.toNat_inj.1 h)
  rw [toNat_cons]
  exact Nat.le_add_right_of_le (Nat.le_mul_of_pos_left _ hpos)

/-- Octets that do not begin with zero are the shortest form of their number. -/
lemma ofNat_toNat {b : UInt8} (hb : b ≠ 0) (bs : Octets) : ofNat (toNat (b :: bs)) = b :: bs := by
  have h : byteLength (toNat (b :: bs)) = (b :: bs).length := byteLength_eq (pow_le_toNat hb bs) (toNat_lt _)
  rw [ofNat, h, fixed_toNat]

end CertAuthority.Octets
