import CertAuthority.Proofs.Der.Value
import CertAuthority.Proofs.Time.Civil
import CertAuthority.Time.Timestamp

/-!
# Times are read as they were written

Which of the two forms a time has depends on its second, and how its year is read on the form. The
year of a time before the limit has its last two digits below fifty if it is after 1999
(`year_lt_of_utcTime`), and no year needs more than four digits (`year_le_last`).
-/

namespace CertAuthority.Timestamp

open Der Civil

/-- Two digits are two octets. -/
lemma digits_two (n : Nat) :
    digits 2 n = [UInt8.ofNat (48 + n / 10 % 10), UInt8.ofNat (48 + n % 10)] := by
  simp [digits, List.range_succ]

/-- Four digits are two times two digits. -/
lemma digits_four (n : Nat) :
    digits 4 n = digits 2 (n / 100) ++ digits 2 (n % 100) := by
  have h1 : n / 1000 % 10 = n / 100 / 10 % 10 := by omega
  have h2 : n / 10 % 10 = n % 100 / 10 % 10 := by omega
  have h3 : n % 10 = n % 100 % 10 := by omega
  simp [digits, List.range_succ, h1, h2, ← h3]

/-- The octet of a digit is a digit. -/
lemma digit_spec {d : Nat} (h : d < 10) :
    48 ≤ UInt8.ofNat (48 + d) ∧ UInt8.ofNat (48 + d) ≤ 57 ∧
      (UInt8.ofNat (48 + d)).toNat = 48 + d := by
  have hd : (UInt8.ofNat (48 + d)).toNat = 48 + d := Octets.toNat_ofNat_octet (by omega)
  have hl : (48 : UInt8).toNat = 48 := rfl
  have hr : (57 : UInt8).toNat = 57 := rfl
  rw [UInt8.le_iff_toNat_le, UInt8.le_iff_toNat_le, hd, hl, hr]
  omega

/-- Two digits are read as the number that was written. -/
lemma twoDigits?_digits {n : Nat} (h : n < 100) :
    twoDigits? (UInt8.ofNat (48 + n / 10 % 10)) (UInt8.ofNat (48 + n % 10)) = some n := by
  obtain ⟨a1, a2, ha⟩ := digit_spec (Nat.mod_lt (n / 10) (show 0 < 10 by omega))
  obtain ⟨b1, b2, hb⟩ := digit_spec (Nat.mod_lt n (show 0 < 10 by omega))
  have hn : (48 + n / 10 % 10 - 48) * 10 + (48 + n % 10 - 48) = n := by omega
  rw [twoDigits?, ha, hb, hn, if_pos]
  rw [decide_eq_true a1, decide_eq_true a2, decide_eq_true b1, decide_eq_true b2]
  rfl

/-- The part of a calendar time after its year is read again. -/
lemma read?_afterYear {t : Timestamp} {c : Civil} (hv : c.isValid = true)
    (hs : c.toSeconds = t.seconds) : read? c.year (afterYear c) = some t := by
  obtain ⟨_, _, hm, _, hd, hh, hn, hsec⟩ := (isValid_iff c).1 hv
  have h31 := monthDays_le c.year c.month
  have hl : c.toSeconds ≤ lastSecond := hs ▸ t.le_last
  simp only [afterYear, digits_two, List.cons_append, List.nil_append, read?,
    twoDigits?_digits (show c.month < 100 by omega), twoDigits?_digits (show c.day < 100 by omega),
    twoDigits?_digits (show c.hour < 100 by omega), twoDigits?_digits (show c.minute < 100 by omega),
    twoDigits?_digits (show c.second < 100 by omega), Option.bind_eq_bind, Option.bind_some]
  rw [dif_pos ⟨hv, hl⟩]
  cases t
  simp [hs]

/-- The number of days before 1970. -/
lemma epochDays_eq : epochDays = 719162 := by
  rw [epochDays, daysBeforeYear]

/-- No year of a time needs more than four digits. -/
lemma year_le_last (t : Timestamp) : (Civil.ofSeconds t.seconds).year < 10000 := by
  have h := t.le_last
  have hd : daysBeforeYear 10000 = 3652059 := by rw [daysBeforeYear]
  refine year_ofSeconds_lt ?_
  rw [epochDays_eq, hd]
  unfold lastSecond at h
  omega

/-- The year of a time before the limit. -/
lemma year_lt_of_utcTime {t : Timestamp} (h : t.seconds < utcTimeLimit) :
    (Civil.ofSeconds t.seconds).year < 2050 := by
  have hd : daysBeforeYear 2050 = 748382 := by rw [daysBeforeYear]
  refine year_ofSeconds_lt ?_
  rw [epochDays_eq, hd]
  unfold utcTimeLimit at h
  omega

/-- The tag of a time is known. -/
lemma known_form (seconds : Nat) (c : Civil) : (form seconds c).Known := by
  unfold form
  split <;> rfl

/-- The tag of the form of a time is known. -/
@[simp] lemma known_tlv (t : Timestamp) : t.tlv.Known :=
  known_form _ _

/-- A second whose calendar time can be read back is read back from its form. -/
lemma ofTlv?_form {t : Timestamp} {c : Civil} (hr : read? c.year (afterYear c) = some t)
    (hy : 1970 ≤ c.year) (hlast : c.year < 10000)
    (hutc : t.seconds < utcTimeLimit → c.year < 2050) : ofTlv? (form t.seconds c) = some t := by
  unfold form
  split
  · rename_i h
    -- two digits stand for a year from 1950 to 2049
    have hc := hutc h
    have hyear : (if 50 ≤ c.year % 100 then 1900 + c.year % 100 else 2000 + c.year % 100) =
        c.year := by
      split <;> omega
    simp only [ofTlv?, if_true, digits_two, List.cons_append, List.nil_append,
      twoDigits?_digits (Nat.mod_lt c.year (show 0 < 100 by omega)), Option.bind_eq_bind,
      Option.bind_some, hyear]
    exact hr
  · have hne : Tag.generalizedTime ≠ Tag.utcTime := by decide
    have hyear : c.year / 100 * 100 + c.year % 100 = c.year := by omega
    simp only [ofTlv?, if_neg hne, if_true, digits_four, digits_two, List.cons_append,
      List.nil_append, twoDigits?_digits (Nat.mod_lt c.year (show 0 < 100 by omega)),
      twoDigits?_digits (show c.year / 100 < 100 by omega), Option.bind_eq_bind, Option.bind_some,
      hyear]
    exact hr

/-- A time is read again. -/
@[simp] lemma ofTlv?_tlv (t : Timestamp) : ofTlv? t.tlv = some t :=
  ofTlv?_form (read?_afterYear (isValid_ofSeconds _) (toSeconds_ofSeconds _))
    ((isValid_iff _).1 (isValid_ofSeconds t.seconds)).1 (year_le_last t) year_lt_of_utcTime

end CertAuthority.Timestamp
