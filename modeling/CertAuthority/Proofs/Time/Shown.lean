import CertAuthority.Proofs.Time.Order
import CertAuthority.Proofs.Time.Timestamp

/-!
# What the form of a time shows

The form of a time is a row of decimal digits with the letter of universal time behind it. Read as one number, the
digits are the calendar time, where a year of two digits is from 50 on one of the 20th century and else one of the
21st (`Shows`). A form shows one calendar time only (`Shows.unique`), and that of a time shows the calendar time of
its second (`shows_tlv`).
-/

namespace CertAuthority

/-- The number that decimal digits write. -/
def Octets.decimal (bs : Octets) : Nat :=
  bs.foldl (fun n b => 10 * n + (b.toNat - 48)) 0

/-- The octets of a row of decimal digits. -/
def Octets.AreDigits (bs : Octets) : Prop :=
  ∀ b ∈ bs, 48 ≤ b ∧ b ≤ 57

/-- Two rows of digits make up one. -/
lemma Octets.AreDigits.append {as bs : Octets} (ha : AreDigits as) (hb : AreDigits bs) : AreDigits (as ++ bs) :=
  List.forall_mem_append.2 ⟨ha, hb⟩

namespace Timestamp

open Der Civil Octets

/-- An element shows a calendar time. Its digits are followed by a Z. -/
inductive Shows : Tlv → Civil → Prop where
  | utcTime {ds : Octets} {c : Civil} :
    ds.length = 12 →
    AreDigits ds →
    decimal ds = number { c with year := c.year % 100 } →
    1950 ≤ c.year →
    c.year < 2050 →
    Shows ⟨Tag.utcTime, ds ++ [90]⟩ c
  | generalizedTime {ds : Octets} {c : Civil} :
    ds.length = 14 →
    AreDigits ds →
    decimal ds = number c →
    Shows ⟨Tag.generalizedTime, ds ++ [90]⟩ c

/-- A number is written in digits. -/
lemma areDigits_digits (n : Nat) : AreDigits (digits 2 n) := by
  obtain ⟨h1, h2, -⟩ := digit_spec (Nat.mod_lt (n / 10) (show 0 < 10 by omega))
  obtain ⟨h3, h4, -⟩ := digit_spec (Nat.mod_lt n (show 0 < 10 by omega))
  rw [digits_two, AreDigits, List.forall_mem_cons, List.forall_mem_singleton]
  exact ⟨⟨h1, h2⟩, h3, h4⟩

/-- Two more digits of a number. -/
lemma decimal_append_digits (bs : Octets) {n : Nat} (h : n < 100) :
    decimal (bs ++ digits 2 n) = decimal bs * 100 + n := by
  obtain ⟨-, -, h1⟩ := digit_spec (Nat.mod_lt (n / 10) (show 0 < 10 by omega))
  obtain ⟨-, -, h2⟩ := digit_spec (Nat.mod_lt n (show 0 < 10 by omega))
  rw [digits_two, decimal, List.foldl_append]
  simp only [List.foldl_cons, List.foldl_nil, h1, h2]
  rw [← decimal]
  omega

/-- Two digits show the number that was written. -/
lemma decimal_digits_two {n : Nat} (h : n < 100) : decimal (digits 2 n) = n := by
  have happend := decimal_append_digits [] h
  rw [List.nil_append] at happend
  rw [happend]
  exact Nat.zero_add n

/-- Four digits show the number that was written. -/
lemma decimal_digits_four {n : Nat} (h : n < 10000) : decimal (digits 4 n) = n := by
  have hhigh : decimal (digits 2 (n / 100)) = n / 100 := decimal_digits_two (by omega)
  rw [digits_four, decimal_append_digits _ (Nat.mod_lt n (by omega)), hhigh]
  omega

/-- The digits behind those of a year, and the letter behind them. -/
lemma exists_row {year : Octets} {c : Civil} (hyear : AreDigits year) (hc : c.IsShort) :
    ∃ ds, year ++ afterYear c = ds ++ [90] ∧ ds.length = year.length + 10 ∧ AreDigits ds ∧
      decimal ds = number { c with year := decimal year } := by
  refine ⟨year ++ digits 2 c.month ++ digits 2 c.day ++ digits 2 c.hour ++ digits 2 c.minute ++
    digits 2 c.second, ?_, ?_, ?_, ?_⟩
  · simp only [afterYear, List.append_assoc]
  · simp only [List.length_append, digits_two, List.length_cons, List.length_nil]
  · exact ((((hyear.append (areDigits_digits _)).append (areDigits_digits _)).append
      (areDigits_digits _)).append (areDigits_digits _)).append (areDigits_digits _)
  · rw [decimal_append_digits _ hc.second, decimal_append_digits _ hc.minute, decimal_append_digits _ hc.hour,
      decimal_append_digits _ hc.day, decimal_append_digits _ hc.month, number]

/-- A form shows the calendar time that it is made of, if it has digits enough for the year. -/
lemma shows_form {seconds : Nat} {c : Civil} (hc : c.IsShort) (hfirst : 1950 ≤ c.year) (hlast : c.year < 10000)
    (hutc : seconds < utcTimeLimit → c.year < 2050) : Shows (form seconds c) c := by
  unfold form
  split
  · rename_i h
    have hyear : decimal (digits 2 (c.year % 100)) = c.year % 100 := decimal_digits_two (Nat.mod_lt _ (by omega))
    obtain ⟨ds, hrow, hlength, hdigits, hnumber⟩ := exists_row (areDigits_digits (c.year % 100)) hc
    rw [hrow]
    rw [hyear] at hnumber
    exact .utcTime hlength hdigits hnumber hfirst (hutc h)
  · have hyear := decimal_digits_four hlast
    have hfour : AreDigits (digits 4 c.year) := by
      rw [digits_four]
      exact (areDigits_digits _).append (areDigits_digits _)
    obtain ⟨ds, hrow, hlength, hdigits, hnumber⟩ := exists_row hfour hc
    rw [hrow]
    rw [hyear] at hnumber
    exact .generalizedTime hlength hdigits hnumber

/-- The form of a time shows the calendar time of its second. -/
lemma shows_tlv (t : Timestamp) : Shows t.tlv (Civil.ofSeconds t.seconds) := by
  have hvalid := isValid_ofSeconds t.seconds
  have hfirst := ((isValid_iff _).1 hvalid).1
  exact shows_form (isShort_of_isValid hvalid) (Nat.le_trans (by decide) hfirst) (year_le_last t)
    year_lt_of_utcTime

/-- An element shows one calendar time only. -/
lemma Shows.unique {t : Tlv} {c d : Civil} (hc : Shows t c) (hd : Shows t d) (hcs : c.IsShort) (hds : d.IsShort) :
    c = d := by
  generalize e : t = u at hd
  cases hc with
  | utcTime _ _ hc hfirst hlast =>
    cases hd with
    | utcTime _ _ hd hfirst' hlast' =>
      obtain rfl := List.append_cancel_right (Tlv.mk.inj e).2
      rw [hc] at hd
      have hparts := Civil.mk.inj (eq_of_number_eq (hcs.withYear _) (hds.withYear _) hd)
      -- the years are of the same hundred years
      have hyear : c.year = d.year := by
        have hend := hparts.1
        omega
      cases c
      cases d
      rw [Civil.mk.injEq]
      exact ⟨hyear, hparts.2⟩
    | generalizedTime => cases e
  | generalizedTime _ _ hc =>
    cases hd with
    | utcTime => cases e
    | generalizedTime _ _ hd =>
      obtain rfl := List.append_cancel_right (Tlv.mk.inj e).2
      exact eq_of_number_eq hcs hds (hc.symm.trans hd)

end Timestamp

end CertAuthority
