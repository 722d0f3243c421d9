import Mathlib.Logic.Function.Iterate
import CertAuthority.Proofs.Time.Civil

/-!
# The order of the calendar

A calendar time is one number if its parts are put together, two decimal digits each (`number`), and these numbers
are in the order of the seconds (`number_lt_iff`). So the calendar has one time for every second, and each of them
is followed by the next one of the calendar (`ofSeconds_succ`), from the first second of 1970 on
(`ofSeconds_eq_iterate`).
-/

namespace CertAuthority.Civil

/-- The decimal digits of all parts in a row, with two digits for each part after the year. -/
def number (c : Civil) : Nat :=
  ((((c.year * 100 + c.month) * 100 + c.day) * 100 + c.hour) * 100 + c.minute) * 100 + c.second

/-- The first second of 1970. -/
def epoch : Civil :=
  ⟨1970, 1, 1, 0, 0, 0⟩

/-- The first second of the day after a second. -/
def nextDay (c : Civil) : Civil :=
  if c.day < monthDays c.year c.month then ⟨c.year, c.month, c.day + 1, 0, 0, 0⟩
  else if c.month < 12 then ⟨c.year, c.month + 1, 1, 0, 0, 0⟩
  else ⟨c.year + 1, 1, 1, 0, 0, 0⟩

/-- The second after a second. -/
def next (c : Civil) : Civil :=
  if c.second < 59 then { c with second := c.second + 1 }
  else if c.minute < 59 then { c with minute := c.minute + 1, second := 0 }
  else if c.hour < 23 then { c with hour := c.hour + 1, minute := 0, second := 0 }
  else c.nextDay

/-- The parts after the year have two digits. -/
structure IsShort (c : Civil) : Prop where
  month : c.month < 100
  day : c.day < 100
  hour : c.hour < 100
  minute : c.minute < 100
  second : c.second < 100

variable {c d : Civil}

/-- The parts of a valid time have two digits after the year. -/
lemma isShort_of_isValid (h : c.isValid = true) : c.IsShort := by
  have hmonth := monthDays_le c.year c.month
  obtain ⟨-, -, hm, -, hd, hh, hn, hs⟩ := (isValid_iff c).1 h
  constructor <;> omega

/-- Whether the parts after the year are short does not depend on the year. -/
lemma IsShort.withYear (h : c.IsShort) (year : Nat) : IsShort { c with year } :=
  ⟨h.month, h.day, h.hour, h.minute, h.second⟩

/-! ### Days -/

/-- How many days from the start of the calendar come before a date. -/
def daysBefore (c : Civil) : Nat :=
  daysBeforeYear c.year + daysBeforeMonth c.year c.month + (c.day - 1)

/-- How many seconds of its day come before a second. -/
def secondOfDay (c : Civil) : Nat :=
  c.hour * 3600 + c.minute * 60 + c.second

/-- The seconds of a time are those of the days before it and those of its day. -/
lemma toSeconds_eq (c : Civil) : c.toSeconds = (c.daysBefore - epochDays) * 86400 + c.secondOfDay := by
  simp only [toSeconds, daysBefore, secondOfDay]
  omega

/-- A day starts at its second zero. -/
lemma secondOfDay_zero (year month day : Nat) : secondOfDay ⟨year, month, day, 0, 0, 0⟩ = 0 := by
  simp only [secondOfDay, Nat.zero_mul, Nat.add_zero]

/-- The second of the day of a valid time is one of 86400. -/
lemma secondOfDay_lt (h : c.isValid = true) : c.secondOfDay < 86400 := by
  obtain ⟨-, -, -, -, -, hh, hn, hs⟩ := (isValid_iff c).1 h
  unfold secondOfDay
  omega

/-- No month of a year begins before an earlier one. -/
lemma daysBeforeMonth_mono {year m n : Nat} (hm : 1 ≤ m) (h : m ≤ n) :
    daysBeforeMonth year m ≤ daysBeforeMonth year n := by
  induction h with
  | refl => exact Nat.le_refl _
  | @step n hle ih =>
    rw [Nat.succ_eq_add_one, daysBeforeMonth_succ year (Nat.le_trans hm hle)]
    omega

/-- A date is before the end of its month. -/
lemma daysBefore_lt_month (h : c.isValid = true) :
    c.daysBefore < daysBeforeYear c.year + daysBeforeMonth c.year (c.month + 1) := by
  obtain ⟨-, hm, -, hd, hlast, -⟩ := (isValid_iff c).1 h
  rw [daysBeforeMonth_succ c.year hm, daysBefore]
  omega

/-- A date is before the end of its year. -/
lemma daysBefore_lt_year (h : c.isValid = true) : c.daysBefore < daysBeforeYear (c.year + 1) := by
  obtain ⟨hy, -, hm, -⟩ := (isValid_iff c).1 h
  have hyear : daysBeforeYear (c.year + 1) = daysBeforeYear c.year + daysBeforeMonth c.year 13 :=
    daysBeforeYear_succ (by omega)
  have hmonth : daysBeforeMonth c.year (c.month + 1) ≤ daysBeforeMonth c.year 13 :=
    daysBeforeMonth_mono (Nat.le_add_left 1 c.month) (by omega)
  have hday := daysBefore_lt_month h
  omega

/-- No date is before 1970. -/
lemma epochDays_le (h : c.isValid = true) : epochDays ≤ c.daysBefore := by
  have hyear := daysBeforeYear_mono ((isValid_iff c).1 h).1
  rw [epochDays, daysBefore]
  omega

/-- An earlier date has fewer days before it. -/
lemma daysBefore_lt (hc : c.isValid = true)
    (h : c.year < d.year ∨ c.year = d.year ∧ (c.month < d.month ∨ c.month = d.month ∧ c.day < d.day)) :
    c.daysBefore < d.daysBefore := by
  obtain ⟨-, hm, -, hday, -⟩ := (isValid_iff c).1 hc
  obtain hy | ⟨hy, hm' | ⟨hm', hd'⟩⟩ := h
  · have hyear : daysBeforeYear (c.year + 1) ≤ daysBeforeYear d.year := daysBeforeYear_mono hy
    have hlast := daysBefore_lt_year hc
    have hfirst : daysBeforeYear d.year ≤ d.daysBefore := by
      unfold daysBefore
      omega
    omega
  · have hmonth : daysBeforeMonth c.year (c.month + 1) ≤ daysBeforeMonth c.year d.month :=
      daysBeforeMonth_mono (Nat.le_add_left 1 c.month) hm'
    have hlast := daysBefore_lt_month hc
    have hfirst : daysBeforeYear c.year + daysBeforeMonth c.year d.month ≤ d.daysBefore := by
      rw [daysBefore, hy]
      omega
    omega
  · rw [daysBefore, daysBefore, hy, hm']
    omega

/-! ### Numbers and seconds -/

/-- The parts of a calendar time are in its number. -/
lemma eq_of_number_eq (hc : c.IsShort) (hd : d.IsShort) (h : c.number = d.number) : c = d := by
  obtain ⟨hcm, hcd, hch, hcn, hcs⟩ := hc
  obtain ⟨hdm, hdd, hdh, hdn, hds⟩ := hd
  unfold number at h
  have hyear : c.year = d.year := by omega
  have hmonth : c.month = d.month := by omega
  have hday : c.day = d.day := by omega
  have hhour : c.hour = d.hour := by omega
  have hminute : c.minute = d.minute := by omega
  have hsecond : c.second = d.second := by omega
  cases c
  cases d
  simp_all only

/-- The earlier of two calendar times is the one with the smaller number. -/
lemma toSeconds_lt (hc : c.isValid = true) (hd : d.isValid = true) (h : c.number < d.number) :
    c.toSeconds < d.toSeconds := by
  obtain ⟨hcm, hcd, hch, hcn, hcs⟩ := isShort_of_isValid hc
  obtain ⟨hdm, hdd, hdh, hdn, hds⟩ := isShort_of_isValid hd
  have hepoch := epochDays_le hc
  have hclock := secondOfDay_lt hc
  unfold number at h
  rw [toSeconds_eq, toSeconds_eq]
  -- either the date is earlier or it is the same and the time of day is
  by_cases hdate : (c.year * 100 + c.month) * 100 + c.day < (d.year * 100 + d.month) * 100 + d.day
  · have hdays : c.daysBefore < d.daysBefore := daysBefore_lt hc (by omega)
    omega
  · have hy : c.year = d.year := by omega
    have hm : c.month = d.month := by omega
    have hday : c.day = d.day := by omega
    have hsame : c.daysBefore = d.daysBefore := by rw [daysBefore, daysBefore, hy, hm, hday]
    have hless : c.secondOfDay < d.secondOfDay := by
      obtain ⟨-, -, -, -, -, -, hn, hs⟩ := (isValid_iff c).1 hc
      obtain ⟨-, -, -, -, -, -, hn', hs'⟩ := (isValid_iff d).1 hd
      unfold secondOfDay
      omega
    rw [hsame]
    omega

/-- The order of the seconds is that of the numbers. -/
lemma number_lt_iff (hc : c.isValid = true) (hd : d.isValid = true) :
    c.number < d.number ↔ c.toSeconds < d.toSeconds := by
  refine ⟨toSeconds_lt hc hd, fun h => ?_⟩
  by_contra hle
  obtain heq | hlt := Nat.eq_or_lt_of_le (Nat.le_of_not_lt hle)
  · rw [eq_of_number_eq (isShort_of_isValid hd) (isShort_of_isValid hc) heq] at h
    exact Nat.lt_irrefl _ h
  · exact Nat.lt_asymm h (toSeconds_lt hd hc hlt)

/-- No two calendar times are the same second. -/
lemma eq_of_toSeconds_eq (hc : c.isValid = true) (hd : d.isValid = true) (h : c.toSeconds = d.toSeconds) :
    c = d := by
  refine eq_of_number_eq (isShort_of_isValid hc) (isShort_of_isValid hd) (Nat.le_antisymm ?_ ?_)
  · exact Nat.le_of_not_lt fun hlt => Nat.ne_of_gt ((number_lt_iff hd hc).1 hlt) h
  · exact Nat.le_of_not_lt fun hlt => Nat.ne_of_lt ((number_lt_iff hc hd).1 hlt) h

/-! ### From one second to the next -/

/-- The day after a day has one more day before it. -/
lemma nextDay_spec (h : c.isValid = true) :
    c.nextDay.isValid = true ∧ c.nextDay.daysBefore = c.daysBefore + 1 ∧ c.nextDay.secondOfDay = 0 := by
  obtain ⟨hy, hm, hm12, hd, hlast, -⟩ := (isValid_iff c).1 h
  unfold nextDay
  split
  · refine ⟨?_, ?_, secondOfDay_zero _ _ _⟩
    · simp only [isValid_iff]
      omega
    · simp only [daysBefore]
      omega
  split
  · have hfirst := one_le_monthDays c.year (c.month + 1)
    refine ⟨?_, ?_, secondOfDay_zero _ _ _⟩
    · simp only [isValid_iff]
      omega
    · simp only [daysBefore, daysBeforeMonth_succ c.year hm]
      omega
  · -- the day is the last one of December
    have hmonth : c.month = 12 := by omega
    have hyear : daysBeforeYear (c.year + 1) = daysBeforeYear c.year + daysBeforeMonth c.year 13 :=
      daysBeforeYear_succ (by omega)
    have hdecember : daysBeforeMonth c.year 13 = daysBeforeMonth c.year 12 + monthDays c.year 12 :=
      daysBeforeMonth_succ c.year (by omega)
    have hfirst := one_le_monthDays (c.year + 1) 1
    rw [hmonth] at hlast
    refine ⟨?_, ?_, secondOfDay_zero _ _ _⟩
    · simp only [isValid_iff]
      omega
    · rename_i hday _
      rw [hmonth] at hday
      simp only [daysBefore, hmonth, hyear, hdecember, daysBeforeMonth_one]
      omega

/-- The second after a second has its parts in their ranges, and it is one second later. -/
lemma next_spec (h : c.isValid = true) : c.next.isValid = true ∧ c.next.toSeconds = c.toSeconds + 1 := by
  have hepoch := epochDays_le h
  have hdate := (isValid_iff c).1 h
  unfold next
  split
  · refine ⟨?_, rfl⟩
    simp only [isValid_iff]
    omega
  split
  · refine ⟨?_, ?_⟩
    · simp only [isValid_iff]
      omega
    · simp only [toSeconds]
      omega
  split
  · refine ⟨?_, ?_⟩
    · simp only [isValid_iff]
      omega
    · simp only [toSeconds]
      omega
  · have hclock : c.secondOfDay + 1 = 86400 := by
      unfold secondOfDay
      omega
    obtain ⟨hvalid, hdays, hzero⟩ := nextDay_spec h
    refine ⟨hvalid, ?_⟩
    rw [toSeconds_eq, toSeconds_eq, hdays, hzero]
    omega

/-- The calendar time of a second is followed by that of the next one. -/
lemma ofSeconds_succ (seconds : Nat) : ofSeconds (seconds + 1) = (ofSeconds seconds).next := by
  obtain ⟨hvalid, hnext⟩ := next_spec (isValid_ofSeconds seconds)
  refine eq_of_toSeconds_eq (isValid_ofSeconds _) hvalid ?_
  rw [hnext, toSeconds_ofSeconds, toSeconds_ofSeconds]

/-- The second zero is the first one of 1970. -/
lemma ofSeconds_zero : ofSeconds 0 = epoch := by
  refine eq_of_toSeconds_eq (isValid_ofSeconds 0) (by decide) ?_
  rw [toSeconds_ofSeconds, toSeconds_eq]
  have hdays : epoch.daysBefore = epochDays := by rw [epochDays]; rfl
  rw [hdays, Nat.sub_self]
  rfl

/-- The calendar time of a second is found by counting on from the first second of 1970. -/
lemma ofSeconds_eq_iterate (seconds : Nat) : ofSeconds seconds = next^[seconds] epoch := by
  induction seconds with
  | zero => exact ofSeconds_zero
  | succ n ih => rw [ofSeconds_succ, ih, Function.iterate_succ_apply']

end CertAuthority.Civil
