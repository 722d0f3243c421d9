import Mathlib.Tactic.Lemma
import CertAuthority.Base64
import CertAuthority.Proofs.Octets

/-!
# Base 64 is read back

The characters of the alphabet are read as the numbers that they stand for (`digit?_character`), and so octets
are read back from what is written for them, with padding or without (`decode?_encode`). Nothing else is read
(`decode?_eq_some_iff`): a character that is read as a number is the one for it (`eq_character_of_digit?`), and
the unused bits of the last group have to be zero.
-/

namespace CertAuthority.Base64

/-- A character of the alphabet is read as its number. -/
lemma digit?_character : ∀ {n : Nat}, n < 64 → digit? (character n) = some n := by
  decide

/-- No character of the alphabet is used for padding. -/
lemma character_ne_pad : ∀ {n : Nat}, n < 64 → character n ≠ pad := by
  decide

/-- What is written holds characters of the alphabet and padding. -/
lemma forall_mem_encode {p : UInt8 → Prop} (hcharacter : ∀ n < 64, p (character n)) (hpad : p pad)
    (bs : Octets) : ∀ b ∈ encode bs, p b := by
  fun_induction encode bs with
  | case1 => simp
  | case2 a n =>
    have hn : n < 256 := a.toNat_lt
    simp only [List.forall_mem_cons]
    exact ⟨hcharacter _ (by omega), hcharacter _ (by omega), hpad, hpad, nofun⟩
  | case3 a b n =>
    have hn : n < 256 * 256 := by
      have ha := a.toNat_lt
      have hb := b.toNat_lt
      omega
    simp only [List.forall_mem_cons]
    exact ⟨hcharacter _ (by omega), hcharacter _ (by omega), hcharacter _ (by omega), hpad, nofun⟩
  | case4 a b c rest n ih =>
    have hn : n < 256 * 256 * 256 := by
      have ha := a.toNat_lt
      have hb := b.toNat_lt
      have hc := c.toNat_lt
      omega
    simp only [List.forall_mem_cons]
    exact ⟨hcharacter _ (by omega), hcharacter _ (by omega), hcharacter _ (by omega),
      hcharacter _ (by omega), ih⟩

/-- Octets that are not empty have characters. -/
lemma encode_ne_nil {bs : Octets} (h : bs ≠ []) : encode bs ≠ [] := by
  fun_cases encode bs with
  | case1 => exact absurd rfl h
  | case2 | case3 | case4 => exact List.cons_ne_nil _ _

/-- An octet is the one that a number has above its last digits. -/
lemma ofNat_eq {n : Nat} {b : UInt8} (h : n % 256 = b.toNat) : UInt8.ofNat n = b := by
  rw [← UInt8.toNat_inj, UInt8.toNat_ofNat']
  exact h

/-- One last octet is read again from its two characters. -/
lemma lastOne?_character (a : UInt8) :
    lastOne? (character (a.toNat / 4)) (character (a.toNat % 4 * 16)) = some [a] := by
  have ha := a.toNat_lt
  have hx := digit?_character (show a.toNat / 4 < 64 by omega)
  have hy := digit?_character (show a.toNat % 4 * 16 < 64 by omega)
  have hoctet : UInt8.ofNat (a.toNat / 4 * 4 + a.toNat % 4 * 16 / 16) = a := ofNat_eq (by omega)
  rw [lastOne?, hx, hy]
  simp only [Option.bind_eq_bind, Option.bind_some]
  rw [if_pos (by omega), hoctet]

/-- Two last octets are read again from their three characters. -/
lemma lastTwo?_character {a b : UInt8} {n : Nat} (hn : n = a.toNat * 256 + b.toNat) :
    lastTwo? (character (n / 1024)) (character (n / 16 % 64)) (character (n % 16 * 4)) = some [a, b] := by
  have ha := a.toNat_lt
  have hb := b.toNat_lt
  have hx := digit?_character (show n / 1024 < 64 by omega)
  have hy := digit?_character (show n / 16 % 64 < 64 by omega)
  have hz := digit?_character (show n % 16 * 4 < 64 by omega)
  have hgroup : (n / 1024 * 64 + n / 16 % 64) * 64 + n % 16 * 4 = n * 4 := by omega
  have hfirst : UInt8.ofNat (n * 4 / 1024) = a := ofNat_eq (by omega)
  have hsecond : UInt8.ofNat (n * 4 / 4) = b := ofNat_eq (by omega)
  rw [lastTwo?, hx, hy, hz]
  simp only [Option.bind_eq_bind, Option.bind_some]
  rw [if_pos (by omega), hgroup, hfirst, hsecond]

/-- Octets are read back from base 64. -/
theorem decode?_encode (bs : Octets) : decode? (encode bs) = some bs := by
  fun_induction encode bs with
  | case1 => rfl
  | case2 a n =>
    rw [decode?, if_pos (by decide), if_pos rfl]
    exact lastOne?_character a
  | case3 a b n =>
    have hthird : character (n % 16 * 4) ≠ pad := character_ne_pad (by omega)
    rw [decode?, if_pos (by decide), if_neg hthird]
    exact lastTwo?_character rfl
  | case4 a b c rest n ih =>
    have ha := a.toNat_lt
    have hb := b.toNat_lt
    have hc := c.toNat_lt
    have hn : n = (a.toNat * 256 + b.toNat) * 256 + c.toNat := rfl
    have hx := digit?_character (show n / 262144 < 64 by omega)
    have hy := digit?_character (show n / 4096 % 64 < 64 by omega)
    have hz := digit?_character (show n / 64 % 64 < 64 by omega)
    have hw := digit?_character (show n % 64 < 64 by omega)
    have hlast : character (n % 64) ≠ pad := character_ne_pad (by omega)
    have hgroup : ((n / 262144 * 64 + n / 4096 % 64) * 64 + n / 64 % 64) * 64 + n % 64 = n := by omega
    have hfirst : UInt8.ofNat (n / 65536) = a := ofNat_eq (by omega)
    have hsecond : UInt8.ofNat (n / 256) = b := ofNat_eq (by omega)
    have hthird : UInt8.ofNat n = c := ofNat_eq (by omega)
    rw [decode?, if_neg (by simp [hlast]), hx, hy, hz, hw, ih]
    simp only [Option.bind_eq_bind, Option.bind_some, Option.pure_def]
    rw [hgroup, hfirst, hsecond, hthird]

/-- What is read as a number is the character of the alphabet for it. -/
lemma eq_character_of_digit? {b : UInt8} {n : Nat} (h : digit? b = some n) : n < 64 ∧ b = character n := by
  have hall : ∀ k < 256, (digit? (UInt8.ofNat k)).all fun n => n < 64 ∧ UInt8.ofNat k = character n := by
    decide +kernel
  have hb := hall b.toNat b.toNat_lt
  rw [UInt8.ofNat_toNat, h] at hb
  exact of_decide_eq_true hb

/-- Two last characters are read only if they are those that the octet is written with. -/
lemma eq_of_lastOne? {a b : UInt8} {bs : Octets} (h : lastOne? a b = some bs) : [a, b, pad, pad] = encode bs := by
  simp only [lastOne?, Option.bind_eq_bind, Option.bind_eq_some_iff, Option.ite_none_right_eq_some,
    Option.some.injEq] at h
  obtain ⟨x, hx, y, hy, hunused, rfl⟩ := h
  obtain ⟨hxlt, rfl⟩ := eq_character_of_digit? hx
  obtain ⟨hylt, rfl⟩ := eq_character_of_digit? hy
  have hoctet : (UInt8.ofNat (x * 4 + y / 16)).toNat = x * 4 + y / 16 := Octets.toNat_ofNat_octet (by omega)
  have hfirst : (x * 4 + y / 16) / 4 = x := by omega
  have hsecond : (x * 4 + y / 16) % 4 * 16 = y := by omega
  simp only [encode, hoctet, hfirst, hsecond]

/-- Three last characters are read only if they are those that the octets are written with. -/
lemma eq_of_lastTwo? {a b c : UInt8} {bs : Octets} (h : lastTwo? a b c = some bs) :
    [a, b, c, pad] = encode bs := by
  simp only [lastTwo?, Option.bind_eq_bind, Option.bind_eq_some_iff, Option.ite_none_right_eq_some,
    Option.some.injEq] at h
  obtain ⟨x, hx, y, hy, z, hz, hunused, rfl⟩ := h
  obtain ⟨hxlt, rfl⟩ := eq_character_of_digit? hx
  obtain ⟨hylt, rfl⟩ := eq_character_of_digit? hy
  obtain ⟨hzlt, rfl⟩ := eq_character_of_digit? hz
  generalize hgroup : (x * 64 + y) * 64 + z = n
  have hoctets : (UInt8.ofNat (n / 1024)).toNat * 256 + (UInt8.ofNat (n / 4)).toNat = n / 4 := by
    rw [Octets.toNat_ofNat_octet (show n / 1024 < 256 by omega), UInt8.toNat_ofNat']
    omega
  have hfirst : n / 4 / 1024 = x := by omega
  have hsecond : n / 4 / 16 % 64 = y := by omega
  have hthird : n / 4 % 16 * 4 = z := by omega
  simp only [encode, hoctets, hfirst, hsecond, hthird]

/-- Base 64 is read as octets exactly if it is what is written for them. -/
theorem decode?_eq_some_iff {cs bs : Octets} : decode? cs = some bs ↔ cs = encode bs := by
  refine ⟨fun h => ?_, fun h => h ▸ decode?_encode bs⟩
  -- By the reader's own cases: the end, one or two octets with padding, a group of four characters, and the rest.
  fun_induction decode? cs generalizing bs with
  | case1 => rw [← Option.some.inj h, encode]
  | case2 a b d rest hlast =>
    rw [Bool.and_eq_true, List.isEmpty_iff, beq_iff_eq] at hlast
    rw [hlast.1, hlast.2]
    exact eq_of_lastOne? h
  | case3 a b c d rest hlast =>
    rw [Bool.and_eq_true, List.isEmpty_iff, beq_iff_eq] at hlast
    rw [hlast.1, hlast.2]
    exact eq_of_lastTwo? h
  | case4 a b c d rest _ ih =>
    simp only [Option.bind_eq_bind, Option.bind_eq_some_iff, Option.pure_def, Option.some.injEq] at h
    obtain ⟨x, hx, y, hy, z, hz, w, hw, tail, hrest, rfl⟩ := h
    obtain ⟨hxlt, rfl⟩ := eq_character_of_digit? hx
    obtain ⟨hylt, rfl⟩ := eq_character_of_digit? hy
    obtain ⟨hzlt, rfl⟩ := eq_character_of_digit? hz
    obtain ⟨hwlt, rfl⟩ := eq_character_of_digit? hw
    -- The four digits make one number, and its three octets make the same number.
    generalize hgroup : ((x * 64 + y) * 64 + z) * 64 + w = n
    have hoctets : ((UInt8.ofNat (n / 65536)).toNat * 256 + (UInt8.ofNat (n / 256)).toNat) * 256 +
        (UInt8.ofNat n).toNat = n := by
      rw [Octets.toNat_ofNat_octet (show n / 65536 < 256 by omega), UInt8.toNat_ofNat', UInt8.toNat_ofNat']
      omega
    have hfirst : n / 262144 = x := by omega
    have hsecond : n / 4096 % 64 = y := by omega
    have hthird : n / 64 % 64 = z := by omega
    have hfourth : n % 64 = w := by omega
    simp only [encode, hoctets, hfirst, hsecond, hthird, hfourth, ih hrest]
  | case5 => exact absurd h nofun

end CertAuthority.Base64
