/-!
# Arithmetic of RSA

Powers and inverses modulo a number, and the length of a number in bits.
-/

namespace CertAuthority.Rsa

/-- How many bits the shortest form of a number has; zero has none. -/
def bitLength (n : Nat) : Nat :=
  if n = 0 then 0 else n.log2 + 1

/-- The power `b ^ e` modulo `m`, by squaring. -/
def powMod (b e m : Nat) : Nat :=
  if e = 0 then 1 % m
  else
    let half := powMod (b * b % m) (e / 2) m
    if e % 2 = 1 then half * b % m else half
termination_by e

/-- The greatest common divisor of two numbers and a factor `x` for which `x * a` is that divisor
modulo `b`. -/
def bezout (a b : Nat) : Nat × Int × Int :=
  if b = 0 then (a, 1, 0)
  else
    let (g, x, y) := bezout b (a % b)
    (g, y, x - (a / b : Nat) * y)
termination_by b
decreasing_by exact Nat.mod_lt _ (by omega)

/-- The number below `m` whose product with `a` is one modulo `m`. -/
def inverse? (a m : Nat) : Option Nat :=
  let (g, x, _) := bezout a m
  if g = 1 then some (x % (m : Int)).toNat else none

end CertAuthority.Rsa
