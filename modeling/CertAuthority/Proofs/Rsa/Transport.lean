import Mathlib.FieldTheory.Finite.Basic
import Mathlib.NumberTheory.LucasPrimality
import Mathlib.Tactic.NormNum.Prime
import CertAuthority.Proofs.Der.Integer
import CertAuthority.Proofs.Der.Length
import CertAuthority.Proofs.Error
import CertAuthority.Proofs.Octets
import CertAuthority.Proofs.Rsa.Arithmetic
import CertAuthority.Rsa.Pkcs1

/-!
# What was encrypted for a key is decrypted with it

A key whose two numbers are different primes decrypts every message that was encrypted for it, with any padding
(`PrivateKey.decryptsOwn_of_prime`): raising to both exponents changes no number modulo either prime, and the
padding ends at the first zero. A number can be shown to be prime by its powers (`prime_of_powers`).
-/

namespace CertAuthority

open Der

namespace Rsa

/-! ### Padding -/

/-- There are as many octets for padding as are asked for, whatever was drawn. -/
lemma length_nonzero (n : Nat) (drawn : Octets) : (nonzero n drawn).length = n := by
  fun_induction nonzero n drawn with
  | case1 => rfl
  | case2 n ih => rw [List.length_cons, ih]
  | case3 n b rest ih => rw [List.length_cons, ih]

/-- None of the octets for padding is zero. -/
lemma ne_zero_of_mem_nonzero {n : Nat} {drawn : Octets} {b : UInt8} (h : b ∈ nonzero n drawn) :
    b ≠ 0 := by
  fun_induction nonzero n drawn with
  | case1 => cases h
  | case2 n ih =>
    obtain rfl | h := List.mem_cons.1 h
    · decide
    · exact ih h
  | case3 n c rest ih =>
    obtain rfl | h := List.mem_cons.1 h
    · split
      · decide
      · assumption
    · exact ih h

/-- A message is found behind padding that has no zeros and is long enough. -/
lemma transportMessage?_eq {padding message : Octets} (hne : ∀ b ∈ padding, b ≠ 0)
    (hlength : 8 ≤ padding.length) :
    transportMessage? (0 :: 2 :: (padding ++ 0 :: message)) = some message := by
  have htake : (padding ++ 0 :: message).takeWhile (· != 0) = padding := by
    rw [List.takeWhile_append_of_pos (fun b hb => bne_iff_ne.2 (hne b hb)),
      List.takeWhile_cons_of_neg (by decide), List.append_nil]
  simp only [transportMessage?, htake, if_neg (Nat.not_lt.2 hlength), List.drop_left]

/-- A padded message has the size of the key and begins with a zero, and the message is found in it. -/
lemma of_transportPadded? {size : Nat} {drawn message padded : Octets}
    (h : transportPadded? size drawn message = some padded) :
    padded.length = size ∧ (∃ rest, padded = 0 :: rest) ∧ transportMessage? padded = some message := by
  unfold transportPadded? at h
  split at h
  · cases h
  · rename_i hsize
    cases h
    have hpadding : 8 ≤ (nonzero (size - message.length - 3) drawn).length := by
      rw [length_nonzero]
      omega
    refine ⟨?_, ⟨_, rfl⟩, ?_⟩
    · simp only [List.length_append, List.length_cons, List.length_nil, length_nonzero]
      omega
    · exact transportMessage?_eq (fun _ => ne_zero_of_mem_nonzero) hpadding

/-! ### Keys -/

namespace PublicKey

/-- The modulus of a key is not zero. -/
lemma modulus_ne_zero (k : PublicKey) : k.modulus ≠ 0 := by
  intro hzero
  have hlong := k.longEnough
  rw [hzero] at hlong
  exact absurd hlong (by decide)

/-- Every key has at least 256 octets. -/
lemma le_size (k : PublicKey) : 256 ≤ k.size := by
  have hlong := k.longEnough
  have hne := k.modulus_ne_zero
  unfold bitLength minModulusBits at hlong
  unfold size Octets.byteLength
  rw [if_neg hne] at hlong ⊢
  omega

/-- The modulus that is read from the form of a key is its own. -/
lemma eq_modulus_of_parts?_info {k : PublicKey} {n e : Nat} (h : parts? k.info = some (n, e)) :
    n = k.modulus := by
  have hguard : ¬ (decide (k.info.algorithm ≠ .withNull Oid.rsaEncryption) ||
      decide (k.info.key.unused ≠ 0)) = true := by
    simp [info, BitString.ofOctets]
  rw [parts?, if_neg hguard] at h
  obtain ⟨t, hdecode, h⟩ := Option.bind_eq_some_iff.1 h
  -- the numbers that are read are those that were written, since they were not too long
  have hfits : (Tlv.sequence [.ofInt k.modulus, .ofInt publicExponent]).Fits :=
    Tlv.fits_of_decode?_encode hdecode
  have hwritten := Tlv.decode?_encode ⟨Tlv.known_sequence _, hfits⟩
  obtain rfl := Option.some.inj (hwritten.symm.trans hdecode)
  have hinside : (Tlv.sequence [.ofInt k.modulus, .ofInt publicExponent]).inside? Tag.sequence =
      some [.ofInt k.modulus, .ofInt publicExponent] :=
    Tlv.inside?_around hfits (by simp)
  simp only [hinside, Option.bind_eq_bind, Option.bind_some, Tlv.toNat?_ofInt] at h
  split at h
  · cases h
    rfl
  · cases h

/-- The general form of a key holds no other key. -/
lemma eq_of_ofInfo_info {k l : PublicKey} (h : ofInfo k.info = .ok l) : l = k := by
  have halgorithm : k.info.algorithm.algorithm = Oid.rsaEncryption := rfl
  rw [ofInfo, if_pos halgorithm, read] at h
  split at h
  · cases h
  · rename_i n e hparts
    obtain ⟨large, -, hl⟩ := bind_eq_ok_iff.1 h
    cases hl
    cases k
    cases eq_modulus_of_parts?_info hparts
    rfl

/-- A message that leaves room for the padding is encrypted to as many octets as the key has. -/
lemma exists_encrypt {k : PublicKey} {message : Octets} (drawn : Octets)
    (h : message.length + 11 ≤ k.size) :
    ∃ c, k.encrypt drawn message = .ok c ∧ c.length = k.size := by
  have hpadded : transportPadded? k.size drawn message = some _ := if_neg (Nat.not_lt.2 h)
  rw [encrypt, hpadded]
  exact ⟨_, rfl, Octets.length_fixed _ _⟩

/-- Powers are taken below the modulus. -/
lemma apply_lt (k : PublicKey) (n : Nat) : k.apply n < k.modulus := by
  rw [apply, powMod_eq]
  exact Nat.mod_lt _ (Nat.pos_of_ne_zero k.modulus_ne_zero)

/-- A number below the modulus fits into as many octets as the key has. -/
lemma toNat_fixed_of_lt {k : PublicKey} {m : Nat} (h : m < k.modulus) :
    Octets.toNat (Octets.fixed k.size m) = m := by
  rw [Octets.toNat_fixed]
  exact Nat.mod_eq_of_lt (Nat.lt_trans h (Octets.lt_pow_byteLength k.modulus))

/-- Octets that begin with a zero and are as many as the key has write a number below the modulus. -/
lemma toNat_lt_modulus {k : PublicKey} {rest : Octets} (h : (0 :: rest).length = k.size) :
    Octets.toNat (0 :: rest) < k.modulus := by
  have hrest : k.size - 1 = rest.length := by
    rw [← h]
    rfl
  have hpow : 256 ^ (k.size - 1) ≤ k.modulus := Octets.pow_byteLength_le k.modulus_ne_zero
  have hlt := Octets.toNat_lt rest
  rw [hrest] at hpow
  rw [Octets.toNat_cons, UInt8.toNat_zero, Nat.zero_mul, Nat.zero_add]
  exact Nat.lt_of_lt_of_le hlt hpow

end PublicKey

/-! ### Powers -/

/-- Raising to both exponents changes no number modulo a prime. -/
lemma pow_modEq_of_inverts {d p e : Nat} (hp : p.Prime) (h : Inverts d p e) (m : Nat) :
    m ^ (e * d) ≡ m [MOD p] := by
  have : Fact p.Prime := ⟨hp⟩
  rw [← ZMod.natCast_eq_natCast_iff, Nat.cast_pow]
  have hexponent : e * d = (p - 1) * (d * e / (p - 1)) + 1 := by
    rw [Nat.mul_comm e d]
    conv_lhs => rw [← Nat.div_add_mod (d * e) (p - 1), h]
  by_cases hm : (m : ZMod p) = 0
  · rw [hm, hexponent, pow_succ, mul_zero]
  · rw [hexponent, pow_succ, pow_mul, ZMod.pow_card_sub_one_eq_one hm, one_pow, one_mul]

namespace PrivateKey

variable {k : PrivateKey}

/-- A key that decrypts every message that was encrypted for it. -/
def DecryptsOwn (k : PrivateKey) : Prop :=
  ∀ drawn message c, k.publicKey.encrypt drawn message = .ok c → k.decrypt c = .ok message

/-- A number below the modulus is its own power by both exponents, as it is one by each of the primes. -/
lemma pow_mod_modulus (hp : k.prime1.Prime) (hq : k.prime2.Prime) (hne : k.prime1 ≠ k.prime2) {m : Nat}
    (hm : m < k.modulus) : m ^ (publicExponent * k.exponent) % k.modulus = m := by
  have hcoprime : k.prime1.Coprime k.prime2 := (Nat.coprime_primes hp hq).2 hne
  have hmod : m ^ (publicExponent * k.exponent) ≡ m [MOD k.prime1 * k.prime2] :=
    (Nat.modEq_and_modEq_iff_modEq_mul hcoprime).1
      ⟨pow_modEq_of_inverts hp k.inverts1 m, pow_modEq_of_inverts hq k.inverts2 m⟩
  rw [k.product] at hmod
  exact Nat.mod_eq_of_modEq hmod hm

/-- The private half finds the number that the public half was applied to. -/
lemma invert?_apply (hp : k.prime1.Prime) (hq : k.prime2.Prime) (hne : k.prime1 ≠ k.prime2) {m : Nat}
    (hm : m < k.modulus) : k.invert? (k.publicKey.apply m) = some m := by
  have hpower : powMod (k.publicKey.apply m) k.exponent k.modulus = m := by
    rw [PublicKey.apply, powMod_eq, powMod_eq]
    show (m ^ publicExponent % k.modulus) ^ k.exponent % k.modulus = m
    rw [← Nat.pow_mod, ← Nat.pow_mul, pow_mod_modulus hp hq hne hm]
  simp only [invert?, hpower, if_true]

/-- A key of two different primes decrypts what was encrypted for it. -/
theorem decryptsOwn_of_prime (hp : k.prime1.Prime) (hq : k.prime2.Prime) (hne : k.prime1 ≠ k.prime2) :
    k.DecryptsOwn := by
  intro drawn message c h
  unfold PublicKey.encrypt at h
  split at h
  · cases h
  · rename_i padded hpadded
    cases h
    obtain ⟨hlength, ⟨rest, rfl⟩, hmessage⟩ := of_transportPadded? hpadded
    have hbelow : Octets.toNat (0 :: rest) < k.modulus := PublicKey.toNat_lt_modulus hlength
    have hcipher : ¬ k.modulus ≤ k.publicKey.apply (Octets.toNat (0 :: rest)) :=
      Nat.not_le.2 (k.publicKey.apply_lt _)
    have hfixed : Octets.fixed k.publicKey.size (Octets.toNat (0 :: rest)) = 0 :: rest := by
      rw [← hlength]
      exact Octets.fixed_toNat _
    unfold decrypt
    simp only [PublicKey.toNat_fixed_of_lt (PublicKey.apply_lt _ _), if_neg hcipher, invert?_apply hp hq hne hbelow,
      Option.bind_eq_bind, Option.bind_some, hfixed, hmessage]

end PrivateKey

/-! ### Primes -/

/-- Whether a power is one in a field of residues can be computed by repeated squaring. -/
lemma natCast_pow_eq_one_iff {p : Nat} (hp : 1 < p) (a n : Nat) :
    (a : ZMod p) ^ n = 1 ↔ powMod a n p = 1 := by
  rw [powMod_eq, ← Nat.cast_pow, ← Nat.cast_one, ZMod.natCast_eq_natCast_iff', Nat.mod_eq_of_lt hp]

/-- A number that is one more than a prime times a power of two is prime if something has the greatest order
that is possible modulo it. -/
lemma prime_of_powers {p k m : Nat} (a : Nat) (hk : k.Prime) (hp : p - 1 = k * Nat.pow 2 m) (h : 1 < p)
    (hfull : powMod a (p - 1) p = 1) (hhalf : powMod a ((p - 1) / 2) p ≠ 1)
    (hpart : powMod a ((p - 1) / k) p ≠ 1) : p.Prime := by
  have hone := natCast_pow_eq_one_iff h a
  refine lucas_primality p (a : ZMod p) ((hone _).2 hfull) fun q hq hdvd => ?_
  rw [Ne, hone]
  rw [hp, Nat.pow_eq] at hdvd
  obtain hdvd | hdvd := (Nat.Prime.dvd_mul hq).1 hdvd
  · rw [(Nat.prime_dvd_prime_iff_eq hq hk).1 hdvd]
    exact hpart
  · rw [(Nat.prime_dvd_prime_iff_eq hq Nat.prime_two).1 (hq.dvd_of_dvd_pow hdvd)]
    exact hhalf

end Rsa

namespace Sample

def transportPrime1 : Nat := 653 * Nat.pow 2 1025 + 1

def transportPrime2 : Nat := 277 * Nat.pow 2 1028 + 1

/-- The first factor is a prime, by the powers of a primitive root. -/
lemma prime_transportPrime1 : transportPrime1.Prime := by
  have hk : Nat.Prime 653 := by norm_num
  have hp : transportPrime1 - 1 = 653 * Nat.pow 2 1025 := by decide +kernel
  exact Rsa.prime_of_powers 3 hk hp (by decide +kernel) (by decide +kernel) (by decide +kernel)
    (by decide +kernel)

/-- The second factor is a prime, by the powers of a primitive root. -/
lemma prime_transportPrime2 : transportPrime2.Prime := by
  have hk : Nat.Prime 277 := by norm_num
  have hp : transportPrime2 - 1 = 277 * Nat.pow 2 1028 := by decide +kernel
  exact Rsa.prime_of_powers 3 hk hp (by decide +kernel) (by decide +kernel) (by decide +kernel)
    (by decide +kernel)

/-- A key of two primes. -/
def transportKey : Rsa.PrivateKey where
  modulus := transportPrime1 * transportPrime2
  exponent := (Rsa.inverse? Rsa.publicExponent ((transportPrime1 - 1) * (transportPrime2 - 1))).getD 0
  prime1 := transportPrime1
  prime2 := transportPrime2
  longEnough := by decide +kernel
  product := rfl
  inverts1 := by decide +kernel
  inverts2 := by decide +kernel

/-- The transport key decrypts what was encrypted for it. -/
lemma decryptsOwn_transportKey : transportKey.DecryptsOwn :=
  Rsa.PrivateKey.decryptsOwn_of_prime prime_transportPrime1 prime_transportPrime2 (by decide +kernel)

end Sample

end CertAuthority
