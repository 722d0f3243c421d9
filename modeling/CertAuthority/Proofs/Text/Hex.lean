import Mathlib.Tactic.Lemma
import CertAuthority.Proofs.Octets
import CertAuthority.Text.Hex

/-!
# Hexadecimal digits are read in either case

A character is read as a digit exactly if it is that digit once it is in lower case (`hexDigit?_eq_some_iff`), so
digits are read exactly if in lower case they write the octets (`hexDecode?_eq_some_iff`).
-/

namespace CertAuthority.Text

/-- What is read of an ASCII character is the number whose digit the character is in lower case. -/
lemma hexDigit_of_ascii : ∀ k < 128, ∀ n ∈ hexDigit? (Char.ofNat k),
    n < 16 ∧ (Char.ofNat k).toLower = hexDigit n := by
  decide +kernel

/-- An ASCII character is a digit of base 16 if its lower case is. -/
lemma hexDigit?_of_ascii : ∀ k < 128, ∀ n < 16, (Char.ofNat k).toLower = hexDigit n →
    hexDigit? (Char.ofNat k) = some n := by
  decide +kernel

/-- The digits of base 16 are ASCII. -/
lemma toNat_hexDigit_lt : ∀ n < 16, (hexDigit n).toNat < 128 := by
  decide

/-- A character above ASCII is above any ASCII character. -/
lemma not_le_of_not_ascii {c d : Char} (hd : d.toNat < 128) (h : ¬ c.toNat < 128) : ¬ c ≤ d := by
  intro hle
  have htoNat : c.toNat ≤ d.toNat := UInt32.le_iff_toNat_le.1 hle
  omega

/-- A character that is not ASCII is no digit, and it has no other case. -/
lemma hexDigit?_of_not_ascii {c : Char} (h : ¬ c.toNat < 128) : hexDigit? c = none ∧ c.toLower = c := by
  have hle {d : Char} (hd : d.toNat < 128) : ¬ c ≤ d := not_le_of_not_ascii hd h
  constructor
  · simp [hexDigit?, hle (d := '9') (by decide), hle (d := 'f') (by decide), hle (d := 'F') (by decide)]
  · exact dif_neg fun hupper => hle (d := 'Z') (by decide) hupper.2

/-- A character is read as a digit of base 16 exactly if its lower case is the digit. -/
lemma hexDigit?_eq_some_iff {c : Char} {n : Nat} : hexDigit? c = some n ↔ n < 16 ∧ c.toLower = hexDigit n := by
  by_cases h : c.toNat < 128
  · rw [← Char.ofNat_toNat c]
    exact ⟨hexDigit_of_ascii _ h n, fun hn => hexDigit?_of_ascii _ h n hn.1 hn.2⟩
  · obtain ⟨hnone, hlower⟩ := hexDigit?_of_not_ascii h
    rw [hnone, hlower]
    constructor
    · intro hsome
      cases hsome
    · rintro ⟨hn, rfl⟩
      exact absurd (toNat_hexDigit_lt n hn) h

/-- Octets are read exactly from their digits in either case. -/
lemma hexDecode?_eq_some_iff {cs : List Char} {bs : Octets} :
    hexDecode? cs = some bs ↔ cs.map Char.toLower = hexEncode bs := by
  induction cs using hexDecode?.induct generalizing bs with
  | case1 => cases bs <;> simp [hexDecode?, hexEncode]
  | case2 c => cases bs <;> simp [hexDecode?, hexEncode]
  | case3 high low rest ih =>
    simp only [hexDecode?, Option.bind_eq_bind, Option.bind_eq_some_iff, hexDigit?_eq_some_iff, ih,
      Option.pure_def, Option.some.injEq, List.map_cons]
    constructor
    · rintro ⟨h, ⟨hh, hhigh⟩, l, ⟨hl, hlow⟩, rest, hrest, rfl⟩
      have hoctet : (UInt8.ofNat (16 * h + l)).toNat = 16 * h + l := Octets.toNat_ofNat_octet (by omega)
      have hfirst : (16 * h + l) / 16 = h := by omega
      have hsecond : (16 * h + l) % 16 = l := by omega
      rw [hexEncode, hoctet, hfirst, hsecond, hhigh, hlow, hrest]
    · intro h
      cases bs with
      | nil => cases h
      | cons b bs =>
        have hb := b.toNat_lt
        rw [hexEncode, List.cons.injEq, List.cons.injEq] at h
        obtain ⟨hhigh, hlow, hrest⟩ := h
        have hoctet : UInt8.ofNat (16 * (b.toNat / 16) + b.toNat % 16) = b := by
          rw [Nat.div_add_mod, UInt8.ofNat_toNat]
        exact ⟨_, ⟨by omega, hhigh⟩, _, ⟨by omega, hlow⟩, bs, hrest, by rw [hoctet]⟩

end CertAuthority.Text
