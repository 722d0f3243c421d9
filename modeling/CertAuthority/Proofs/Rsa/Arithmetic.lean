import Mathlib.Algebra.Group.Nat.Defs
import CertAuthority.Rsa.Arithmetic

/-!
# What the arithmetic of RSA computes

Repeated squaring computes the power that the primitives of RSA are made of (`powMod_eq`).
-/

namespace CertAuthority.Rsa

/-- Repeated squaring computes the power. -/
theorem powMod_eq (b e m : Nat) : powMod b e m = b ^ e % m := by
  induction b, e using powMod.induct m with
  | case1 b => simp [powMod]
  | case2 b e h h1 ih =>
    rw [powMod, if_neg h]
    simp only [if_pos h1]
    rw [ih, ← Nat.pow_mod, Nat.mod_mul_mod, ← Nat.pow_two, ← Nat.pow_mul,
      ← Nat.pow_succ]
    congr 2
    omega
  | case3 b e h h1 ih =>
    rw [powMod, if_neg h]
    simp only [if_neg h1]
    rw [ih, ← Nat.pow_mod, ← Nat.pow_two, ← Nat.pow_mul]
    congr 2
    omega

end CertAuthority.Rsa
