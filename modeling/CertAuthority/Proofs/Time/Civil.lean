import Mathlib.Tactic.Common
import CertAuthority.Time.Civil

/-!
# The calendar

Every second has exactly one calendar time: `toSeconds_ofSeconds` reads the calendar time of a second
back as that second, and `isValid_ofSeconds` says that its parts are in their ranges. The year is
found from an estimate (`yearOf_spec`), the month by going through the months (`monthAndDay_spec`).
-/

namespace CertAuthority.Civil

/-- Every month has a day. -/
lemma one_le_monthDays (year month : Nat) : 1 ≤ monthDays year month := by
  unfold monthDays
  split
  · split <;> omega
  · split <;> omega

/-- A month has at most 31 days. -/
lemma monthDays_le (year month : Nat) : monthDays year month ≤ 31 := by
  unfold monthDays
  split
  · split <;> omega
  · split <;> omega

/-- The days of the months before a month, and those of that month, come before the next. -/
lemma daysBeforeMonth_succ (year : Nat) {month : Nat} (h : 1 ≤ month) :
    daysBeforeMonth year (month + 1) = daysBeforeMonth year month + monthDays year month := by
  obtain ⟨m, rfl⟩ : ∃ m, month = m + 1 := ⟨month - 1, by omega⟩
  simp [daysBeforeMonth, List.range_succ]

/-- The months of a year have 365 days, or one more in leap years. -/
lemma daysBeforeMonth_thirteen (year : Nat) :
    daysBeforeMonth year 13 = 365 + if isLeap year then 1 else 0 := by
  have hm : daysBeforeMonth year 13 = 337 + monthDays year 2 := by
    simp [daysBeforeMonth, List.range_succ, monthDays]
    omega
  rw [hm, monthDays, if_pos rfl]
  split <;> rfl

/-- A year has as many days as its twelve months. -/
lemma daysBeforeYear_succ {year : Nat} (h : 1 ≤ year) :
    daysBeforeYear (year + 1) = daysBeforeYear year + daysBeforeMonth year 13 := by
  obtain ⟨k, rfl⟩ : ∃ k, year = k + 1 := ⟨year - 1, by omega⟩
  have h4 : (k + 1) / 4 = k / 4 + if (k + 1) % 4 = 0 then 1 else 0 := by
    split <;> omega
  have h100 : (k + 1) / 100 = k / 100 + if (k + 1) % 100 = 0 then 1 else 0 := by
    split <;> omega
  have h400 : (k + 1) / 400 = k / 400 + if (k + 1) % 400 = 0 then 1 else 0 := by
    split <;> omega
  have hle : k / 100 ≤ k / 4 := by omega
  -- every fourth, hundredth and four hundredth year changes one of the three counts
  have h100' : (k + 1) % 400 = 0 → (k + 1) % 100 = 0 := by omega
  have h4' : (k + 1) % 100 = 0 → (k + 1) % 4 = 0 := by omega
  rw [daysBeforeMonth_thirteen]
  have e1 : daysBeforeYear (k + 1 + 1) =
      365 * (k + 1) + (k + 1) / 4 - (k + 1) / 100 + (k + 1) / 400 := rfl
  have e0 : daysBeforeYear (k + 1) = 365 * k + k / 4 - k / 100 + k / 400 := rfl
  rw [e1, e0, h4, h100, h400]
  by_cases d400 : (k + 1) % 400 = 0
  · have hl : isLeap (k + 1) = true := by simp [isLeap, d400, h4' (h100' d400)]
    rw [hl, if_pos d400, if_pos (h100' d400), if_pos (h4' (h100' d400)), if_pos rfl]
    omega
  · by_cases d100 : (k + 1) % 100 = 0
    · have hl : isLeap (k + 1) = false := by simp [isLeap, d400, d100]
      rw [hl, if_neg d400, if_pos d100, if_pos (h4' d100), if_neg Bool.false_ne_true]
      omega
    · rw [if_neg d400, if_neg d100]
      by_cases d4 : (k + 1) % 4 = 0
      · have hl : isLeap (k + 1) = true := by simp [isLeap, d100, d4]
        rw [hl, if_pos d4, if_pos rfl]
        omega
      · have hl : isLeap (k + 1) = false := by simp [isLeap, d4]
        rw [hl, if_neg d4, if_neg Bool.false_ne_true]
        omega

/-- No year begins before an earlier one. -/
lemma daysBeforeYear_mono {y z : Nat} (h : y ≤ z) : daysBeforeYear y ≤ daysBeforeYear z := by
  induction h with
  | refl => exact Nat.le_refl _
  | @step z _ ih =>
    cases Nat.eq_zero_or_pos z with
    | inl h0 =>
      subst h0
      exact ih
    | inr h0 =>
      rw [Nat.succ_eq_add_one, daysBeforeYear_succ h0]
      omega

/-- A day is in the year that is found for it. -/
lemma yearOf_spec (days : Nat) :
    daysBeforeYear (yearOf days) ≤ days ∧ days < daysBeforeYear (yearOf days + 1) := by
  unfold yearOf daysBeforeYear
  simp only
  split
  · omega
  · split <;> omega

/-- The month and the day that are found for a day of a year. -/
lemma monthAndDay_spec (year : Nat) (n month day : Nat) (h1 : 1 ≤ month) (h12 : month + n = 12)
    (hd : daysBeforeMonth year month + day < daysBeforeMonth year 13) :
    let r := monthAndDay year n month day
    1 ≤ r.1 ∧ r.1 ≤ 12 ∧ 1 ≤ r.2 ∧ r.2 ≤ monthDays year r.1 ∧
      daysBeforeMonth year r.1 + (r.2 - 1) = daysBeforeMonth year month + day := by
  induction n generalizing month day with
  | zero =>
    obtain rfl : month = 12 := by omega
    -- what is left in December fits into it, as the year has no more days
    have hs : daysBeforeMonth year 13 = daysBeforeMonth year 12 + monthDays year 12 :=
      daysBeforeMonth_succ year h1
    simp only [monthAndDay]
    omega
  | succ n ih =>
    simp only [monthAndDay]
    split
    · simp only
      omega
    · have hs := daysBeforeMonth_succ year h1
      have := ih (month + 1) (day - monthDays year month) (by omega) (by omega) (by omega)
      simp only at this ⊢
      omega

/-- Before the first month there are no days. -/
lemma daysBeforeMonth_one (year : Nat) : daysBeforeMonth year 1 = 0 :=
  rfl

/-- The date of a day that is not before 1970: its parts are in their ranges, and together they are
the day. -/
lemma dateOf_spec {days : Nat} (h : epochDays ≤ days) :
    1970 ≤ (dateOf days).1 ∧ 1 ≤ (dateOf days).2.1 ∧ (dateOf days).2.1 ≤ 12 ∧
      1 ≤ (dateOf days).2.2 ∧ (dateOf days).2.2 ≤ monthDays (dateOf days).1 (dateOf days).2.1 ∧
      daysBeforeYear (dateOf days).1 + daysBeforeMonth (dateOf days).1 (dateOf days).2.1 +
          ((dateOf days).2.2 - 1) = days := by
  unfold dateOf
  obtain ⟨hy1, hy2⟩ := yearOf_spec days
  have hy : 1970 ≤ yearOf days := by
    by_contra hlt
    -- an earlier year would be over before the day
    have : daysBeforeYear (yearOf days + 1) ≤ daysBeforeYear 1970 := daysBeforeYear_mono (by omega)
    rw [epochDays] at h
    omega
  rw [daysBeforeYear_succ (by omega)] at hy2
  have hm := monthAndDay_spec (yearOf days) 11 1 (days - daysBeforeYear (yearOf days))
    (by omega) (by omega) (by rw [daysBeforeMonth_one]; omega)
  rw [daysBeforeMonth_one] at hm
  obtain ⟨m1, m2, d1, d2, hd⟩ := hm
  have he : daysBeforeYear (yearOf days) + daysBeforeMonth (yearOf days)
      (monthAndDay (yearOf days) 11 1 (days - daysBeforeYear (yearOf days))).1 +
        ((monthAndDay (yearOf days) 11 1 (days - daysBeforeYear (yearOf days))).2 - 1) = days := by
    omega
  exact ⟨hy, m1, m2, d1, d2, he⟩

/-- A calendar time is valid if all its parts are in their ranges. -/
lemma isValid_iff (c : Civil) : c.isValid = true ↔
    1970 ≤ c.year ∧ 1 ≤ c.month ∧ c.month ≤ 12 ∧ 1 ≤ c.day ∧ c.day ≤ monthDays c.year c.month ∧
      c.hour ≤ 23 ∧ c.minute ≤ 59 ∧ c.second ≤ 59 := by
  simp [isValid, and_assoc]

/-- The time of day of a second on a valid date has its parts in their ranges. -/
lemma isValid_onDate {date : Nat × Nat × Nat} (seconds : Nat) (hy : 1970 ≤ date.1)
    (m1 : 1 ≤ date.2.1) (m2 : date.2.1 ≤ 12) (d1 : 1 ≤ date.2.2)
    (d2 : date.2.2 ≤ monthDays date.1 date.2.1) : (onDate date seconds).isValid = true := by
  have hh : seconds / 3600 % 24 ≤ 23 := by omega
  have hn : seconds / 60 % 60 ≤ 59 := by omega
  have hs : seconds % 60 ≤ 59 := by omega
  rw [isValid_iff]
  exact ⟨hy, m1, m2, d1, d2, hh, hn, hs⟩

/-- The time of day of a second on its own date is that second. -/
lemma toSeconds_onDate {date : Nat × Nat × Nat} {seconds : Nat}
    (hd : daysBeforeYear date.1 + daysBeforeMonth date.1 date.2.1 + (date.2.2 - 1) =
      seconds / 86400 + epochDays) : (onDate date seconds).toSeconds = seconds := by
  simp only [onDate, toSeconds, Nat.sub_eq_of_eq_add hd]
  omega

/-- The parts of the calendar time of a second are in their ranges. -/
lemma isValid_ofSeconds (seconds : Nat) : (ofSeconds seconds).isValid = true := by
  obtain ⟨hy, m1, m2, d1, d2, _⟩ := dateOf_spec (Nat.le_add_left epochDays (seconds / 86400))
  exact isValid_onDate seconds hy m1 m2 d1 d2

/-- The calendar time of a second is that second. -/
@[simp] lemma toSeconds_ofSeconds (seconds : Nat) : (ofSeconds seconds).toSeconds = seconds := by
  obtain ⟨_, _, _, _, _, hd⟩ := dateOf_spec (Nat.le_add_left epochDays (seconds / 86400))
  exact toSeconds_onDate hd

/-- The year of a second is before a year that begins after it. -/
lemma year_ofSeconds_lt {seconds year : Nat}
    (h : seconds / 86400 + epochDays < daysBeforeYear year) : (ofSeconds seconds).year < year := by
  by_contra hle
  have h1 := (yearOf_spec (seconds / 86400 + epochDays)).1
  have h2 : daysBeforeYear year ≤ daysBeforeYear (yearOf (seconds / 86400 + epochDays)) :=
    daysBeforeYear_mono (Nat.le_of_not_lt hle)
  omega

end CertAuthority.Civil
