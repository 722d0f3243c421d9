import CertAuthority.Lenient.Value
import CertAuthority.Proofs.Lenient.Element
import CertAuthority.Proofs.Time.Timestamp

/-!
# The lenient reader on times

The lenient reader takes both forms of a time apart digit by digit and looks at the ranges of the parts.
It accepts every time that is written (`time?_encode`), in either form.
-/

namespace CertAuthority.Lenient

open Der Timestamp

variable {c : Civil}

/-- The day of a valid time is in the calendar. -/
lemma isDay_of_isValid (h : c.isValid = true) : isDay c.year c.month c.day = true := by
  obtain ⟨_, h1, h2, h3, h4, _⟩ := (Civil.isValid_iff c).1 h
  simp [isDay, h1, h2, h3, h4]

/-- All parts of a time but the year have two digits. -/
lemma lt_of_isValid (h : c.isValid = true) :
    c.month < 100 ∧ c.day < 100 ∧ c.hour < 100 ∧ c.minute < 100 ∧ c.second < 100 := by
  obtain ⟨_, _, hm, _, hd, hh, hn, hs⟩ := (Civil.isValid_iff c).1 h
  have h31 := Civil.monthDays_le c.year c.month
  omega

/-- The form of two digits of the year is accepted for the years that it stands for. -/
lemma isUtcTime_written (h : c.isValid = true) (hlast : c.year < 2050) :
    isUtcTime (digits 2 (c.year % 100) ++ afterYear c) = true := by
  obtain ⟨hfirst, _, _, _, _, hh, hn, hs⟩ := (Civil.isValid_iff c).1 h
  obtain ⟨hmonth, hday, hhour, hminute, hsecond⟩ := lt_of_isValid h
  have hyear : (if 50 ≤ c.year % 100 then 1900 + c.year % 100 else 2000 + c.year % 100) = c.year := by
    split <;> omega
  unfold isUtcTime
  simp only [afterYear, digits_two, List.cons_append, List.nil_append,
    twoDigits?_digits (Nat.mod_lt c.year (Nat.zero_lt_succ 99)), twoDigits?_digits hmonth,
    twoDigits?_digits hday, twoDigits?_digits hhour, twoDigits?_digits hminute,
    twoDigits?_digits hsecond, Option.bind_eq_bind, Option.bind_some, Option.pure_def, Option.any_some,
    hyear, isDay_of_isValid h, decide_eq_true hh, decide_eq_true hn, decide_eq_true hs, if_true,
    Bool.and_true]
  rfl

/-- The form of four digits of the year is accepted for all years that have four digits. -/
lemma isGeneralizedTime_written (h : c.isValid = true) (hlast : c.year < 10000) :
    isGeneralizedTime (digits 4 c.year ++ afterYear c) = true := by
  obtain ⟨_, _, _, _, _, hh, hn, hs⟩ := (Civil.isValid_iff c).1 h
  obtain ⟨hmonth, hday, hhour, hminute, hsecond⟩ := lt_of_isValid h
  have hcentury : c.year / 100 < 100 := by omega
  have hyear : c.year / 100 * 100 + c.year % 100 = c.year := Nat.div_add_mod' c.year 100
  simp only [afterYear, digits_two, digits_four, List.cons_append, List.nil_append, isGeneralizedTime,
    twoDigits?_digits (Nat.mod_lt c.year (Nat.zero_lt_succ 99)), twoDigits?_digits hcentury,
    twoDigits?_digits hmonth, twoDigits?_digits hday, twoDigits?_digits hhour, twoDigits?_digits hminute,
    twoDigits?_digits hsecond, Option.bind_eq_bind, Option.bind_some, Option.pure_def, Option.any_some,
    hyear, isDay_of_isValid h, decide_eq_true hh, decide_eq_true hn, decide_eq_true hs, Bool.and_true]
  rfl

/-- The form of a time is one of the two that are accepted. -/
lemma isUtcTime_or_isGeneralizedTime (t : Timestamp) :
    (t.tlv.tag = Tag.utcTime ∧ isUtcTime t.tlv.content = true) ∨
      (t.tlv.tag = Tag.generalizedTime ∧ isGeneralizedTime t.tlv.content = true) := by
  have hvalid := Civil.isValid_ofSeconds t.seconds
  unfold Timestamp.tlv form
  split
  · rename_i hutc
    exact .inl ⟨rfl, isUtcTime_written hvalid (year_lt_of_utcTime hutc)⟩
  · exact .inr ⟨rfl, isGeneralizedTime_written hvalid (year_le_last t)⟩

/-- Every time is accepted. -/
lemma time?_encode {t : Timestamp} (h : t.tlv.Readable) (rest : Octets) :
    time? (t.tlv.encode ++ rest) = some ((), rest) := by
  simp only [time?, element?_encode h, Option.bind_eq_bind, Option.bind_some, content_ofTlv,
    number_ofTlv]
  obtain ⟨htag, hc⟩ | ⟨htag, hc⟩ := isUtcTime_or_isGeneralizedTime t
  · simp [htag, hc, Tag.utcTime]
  · simp [htag, hc, Tag.generalizedTime]

end CertAuthority.Lenient
