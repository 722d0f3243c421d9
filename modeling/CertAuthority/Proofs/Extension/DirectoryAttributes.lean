import Mathlib.Tactic.IntervalCases
import CertAuthority.Extension.DirectoryAttribute
import CertAuthority.Proofs.Extension.Fixed
import CertAuthority.Proofs.Oid.Text
import CertAuthority.Proofs.Text.Spaced

/-!
# Attributes of persons

Which values stand for an attribute of a person under which labels is said without the readers
(`DirectoryAttribute.Means`): days of the calendar in eight digits, places, and letters of either case. A text is
read exactly if each of its components with content gives an attribute so, and the attributes are read again from
what is written of them (`DirectoryAttribute.parse_gives`).
-/

namespace CertAuthority

open Der

/-! ### Days of the calendar -/

namespace Civil

/-- Every fourth year has a leap day, but of the last years of the centuries only every fourth. -/
def IsLeap (year : Nat) : Prop :=
  4 ∣ year ∧ (100 ∣ year → 400 ∣ year)

instance (year : Nat) : Decidable (IsLeap year) :=
  inferInstanceAs (Decidable (_ ∧ _))

/-- The lengths of the months of a year. -/
def monthLengths (year : Nat) : List Nat :=
  [31, if IsLeap year then 29 else 28, 31, 30, 31, 30, 31, 31, 30, 31, 30, 31]

/-- A day of the Gregorian calendar. Months and days are counted from one. -/
def IsDate (year month day : Nat) : Prop :=
  1 ≤ month ∧ 1 ≤ day ∧ ∃ length ∈ (monthLengths year)[month - 1]?, day ≤ length

/-- The test for leap years is the rule of the calendar. -/
lemma isLeap_iff {year : Nat} : isLeap year = true ↔ IsLeap year := by
  simp only [isLeap, IsLeap, Bool.and_eq_true, Bool.or_eq_true, decide_eq_true_eq, bne_iff_ne, ne_eq,
    Nat.dvd_iff_mod_eq_zero, imp_iff_not_or]

/-- The lengths of the months are those of the calendar. -/
lemma monthDays_eq {year month : Nat} (hfirst : 1 ≤ month) (hlast : month ≤ 12) :
    (monthLengths year)[month - 1]? = some (monthDays year month) := by
  have hleap : (if IsLeap year then 29 else 28) = if isLeap year then 29 else 28 := by
    simp only [isLeap_iff]
  rw [monthLengths, hleap]
  interval_cases month <;> rfl

/-- A date is a day that its month has. -/
lemma isDate_iff {year month day : Nat} :
    IsDate year month day ↔ 1 ≤ month ∧ month ≤ 12 ∧ 1 ≤ day ∧ day ≤ monthDays year month := by
  constructor
  · rintro ⟨hfirst, hday, length, hlength, hle⟩
    have hlast : month ≤ 12 := by
      obtain ⟨hmonth, -⟩ := List.getElem?_eq_some_iff.1 hlength
      have : month - 1 < 12 := hmonth
      omega
    rw [monthDays_eq hfirst hlast, Option.mem_some_iff] at hlength
    exact ⟨hfirst, hlast, hday, hlength ▸ hle⟩
  · rintro ⟨hfirst, hlast, hday, hle⟩
    exact ⟨hfirst, hday, _, monthDays_eq hfirst hlast, hle⟩

end Civil

namespace DirectoryAttribute

/-! ### Numbers of fixed width -/

/-- A number in decimal digits, with zeros in front up to a width. -/
structure IsNumeral (width : Nat) (s : String) (n : Nat) : Prop where
  length : s.length = width
  written : ValueEncoding.WritesNat s.toList n

/-- Digits are a numeral of their own width. -/
lemma isNumeral_ofList {width : Nat} {cs : List Char} (hwidth : 0 < width) (hlength : cs.length = width)
    (hdigits : ∀ c ∈ cs, c.isDigit = true) : IsNumeral width (String.ofList cs) (Nat.ofDigitChars 10 cs 0) := by
  refine ⟨by simpa using hlength, ?_⟩
  rw [String.toList_ofList]
  exact ⟨List.ne_nil_of_length_pos (hlength ▸ hwidth), hdigits, rfl⟩

/-- A numeral has as many characters as its width says. -/
lemma IsNumeral.length_toList {width n : Nat} {s : String} (h : IsNumeral width s n) : s.toList.length = width := by
  rw [String.length_toList, h.length]

/-- Eight digits are numerals for a year, a month and a day. -/
lemma exists_numerals {value : String} (hlength : value.length = 8)
    (hdigits : ∀ c ∈ value.toList, c.isDigit = true) :
    ∃ year month day y m d, value = year ++ month ++ day ∧
      IsNumeral 4 year y ∧ IsNumeral 2 month m ∧ IsNumeral 2 day d := by
  rw [← String.length_toList] at hlength
  have hdrop {c : Char} {n : Nat} (hc : c ∈ value.toList.drop n) : c.isDigit = true :=
    hdigits c (List.mem_of_mem_drop hc)
  have hyear : IsNumeral 4 (String.ofList (value.toList.take 4)) _ :=
    isNumeral_ofList (by omega) (by simp [hlength]) fun c hc => hdigits c (List.mem_of_mem_take hc)
  have hmonth : IsNumeral 2 (String.ofList ((value.toList.drop 4).take 2)) _ :=
    isNumeral_ofList (by omega) (by simp [hlength]) fun c hc => hdrop (List.mem_of_mem_take hc)
  have hday : IsNumeral 2 (String.ofList (value.toList.drop 6)) _ :=
    isNumeral_ofList (by omega) (by simp [hlength]) fun c hc => hdrop hc
  have hrest : value.toList.drop 6 = (value.toList.drop 4).drop 2 := by rw [List.drop_drop]
  refine ⟨_, _, _, _, _, _, ?_, hyear, hmonth, hday⟩
  rw [← String.ofList_append, ← String.ofList_append, hrest, List.append_assoc, List.take_append_drop,
    List.take_append_drop, String.ofList_toList]

/-- Numerals for a year, a month and a day are a day exactly if there is such a date. -/
lemma isDay_iff {year month day : String} {y m d : Nat} (hyear : IsNumeral 4 year y) (hmonth : IsNumeral 2 month m)
    (hday : IsNumeral 2 day d) : isDay (year ++ month ++ day) = true ↔ Civil.IsDate y m d := by
  have hy := hyear.length_toList
  have hm := hmonth.length_toList
  have hd := hday.length_toList
  have hfirst : (year.toList ++ month.toList ++ day.toList).take 4 = year.toList := by
    rw [List.append_assoc, List.take_left' hy]
  have hrest : (year.toList ++ month.toList ++ day.toList).drop 4 = month.toList ++ day.toList := by
    rw [List.append_assoc, List.drop_left' hy]
  have hlast : (year.toList ++ month.toList ++ day.toList).drop 6 = day.toList := by
    rw [List.drop_left' (by simp [hy, hm])]
  have hlength : (year.toList ++ month.toList ++ day.toList).length = 8 := by simp [hy, hm, hd]
  have hdigits : (year.toList ++ month.toList ++ day.toList).all Char.isDigit = true := by
    simp only [List.all_append, Bool.and_eq_true, List.all_eq_true]
    exact ⟨⟨hyear.written.2.1, hmonth.written.2.1⟩, hday.written.2.1⟩
  simp only [isDay, String.toList_append, hfirst, hrest, List.take_left' hm, hlast,
    hyear.written.2.2, hmonth.written.2.2, hday.written.2.2, hdigits, hlength, Civil.isDate_iff]
  simp [and_assoc]

/-! ### What labels and values stand for -/

/-- A value stands for an attribute under a label, which is compared without regard to case. -/
inductive Means (label : String) : String → DirectoryAttribute → Prop where
  | dateOfBirth {year month day : String} {y m d : Nat} :
    Text.lowered label = "dateofbirth" →
    IsNumeral 4 year y →
    IsNumeral 2 month m →
    IsNumeral 2 day d →
    Civil.IsDate y m d →
    Means label (year ++ month ++ day)
      ⟨Oid.dateOfBirth, .ofText Tag.generalizedTime (year ++ month ++ day ++ "120000Z")⟩
  | placeOfBirth {place : String} :
    Text.lowered label = "placeofbirth" →
    place ≠ "" →
    Means label place ⟨Oid.placeOfBirth, .ofText Tag.utf8String place⟩
  | gender {c : Char} :
    Text.lowered label = "gender" →
    c ∈ ['M', 'm', 'F', 'f'] →
    Means label (String.ofList [c]) ⟨Oid.gender, .ofText Tag.printableString (String.ofList [c.toUpper])⟩
  | country {type : Oid} {c d : Char} :
    (Text.lowered label, type) ∈
      [("countryofcitizenship", Oid.countryOfCitizenship), ("countryofresidence", Oid.countryOfResidence)] →
    c.isAlpha = true →
    d.isAlpha = true →
    Means label (String.ofList [c, d])
      ⟨type, .ofText Tag.printableString (String.ofList [c.toUpper, d.toUpper])⟩

section

variable {label value : String} {t : Tlv} {a : DirectoryAttribute}

/-- A value stands for a day exactly if it is a date in eight digits, and it is written as the noon of it. -/
lemma dayTlv?_eq_some_iff : dayTlv? value = some t ↔ ∃ year month day y m d,
    value = year ++ month ++ day ∧ IsNumeral 4 year y ∧ IsNumeral 2 month m ∧ IsNumeral 2 day d ∧
      Civil.IsDate y m d ∧ t = .ofText Tag.generalizedTime (value ++ "120000Z") := by
  rw [dayTlv?, Option.ite_none_right_eq_some, Option.some.injEq]
  constructor
  · rintro ⟨hday, rfl⟩
    have hdigits : value.length = 8 ∧ ∀ c ∈ value.toList, c.isDigit = true := by
      simp only [isDay, Bool.and_eq_true, decide_eq_true_eq, List.all_eq_true, String.length_toList] at hday
      exact hday.1.1.1.1
    obtain ⟨year, month, day, y, m, d, rfl, hyear, hmonth, hday'⟩ := exists_numerals hdigits.1 hdigits.2
    exact ⟨year, month, day, y, m, d, rfl, hyear, hmonth, hday', (isDay_iff hyear hmonth hday').1 hday, rfl⟩
  · rintro ⟨year, month, day, y, m, d, rfl, hyear, hmonth, hday, hdate, rfl⟩
    exact ⟨(isDay_iff hyear hmonth hday).2 hdate, rfl⟩

/-- A value stands for a place exactly if it is not empty. -/
lemma placeTlv?_eq_some_iff :
    placeTlv? value = some t ↔ value ≠ "" ∧ t = .ofText Tag.utf8String value := by
  rw [placeTlv?, Option.ite_none_left_eq_some, Option.some.injEq, String.isEmpty_iff, eq_comm (a := t)]

/-- A text is put into upper case character by character. -/
lemma uppered_ofList (cs : List Char) : Text.uppered (String.ofList cs) = String.ofList (cs.map Char.toUpper) := by
  rw [Text.uppered, ← String.toList_inj, String.toList_map, String.toList_ofList, String.toList_ofList]

/-- Both letters of a gender may be in either case. -/
lemma toUpper_mem_iff {c : Char} : c.toUpper ∈ ['M', 'F'] ↔ c ∈ ['M', 'm', 'F', 'f'] := by
  constructor
  · intro hc
    obtain h | h : c.toUpper = 'M' ∨ c.toUpper = 'F' := by simpa using hc
    · obtain rfl | rfl := Text.eq_or_eq_of_toUpper h <;> decide
    · obtain rfl | rfl := Text.eq_or_eq_of_toUpper h <;> decide
  · intro hc
    simp only [List.mem_cons, List.not_mem_nil, or_false] at hc
    obtain rfl | rfl | rfl | rfl := hc <;> decide

/-- A value stands for a gender exactly if it is one of its letters, which is written in upper case. -/
lemma genderTlv?_eq_some_iff : genderTlv? value = some t ↔ ∃ c ∈ ['M', 'm', 'F', 'f'],
    value = String.ofList [c] ∧ t = .ofText Tag.printableString (String.ofList [c.toUpper]) := by
  have hupper : (Text.uppered value = "M" ∨ Text.uppered value = "F") ↔
      ∃ u ∈ ['M', 'F'], Text.uppered value = String.ofList [u] := by simp
  simp only [genderTlv?, Bool.or_eq_true, decide_eq_true_eq, Option.ite_none_right_eq_some, Option.some.injEq, hupper]
  constructor
  · rintro ⟨⟨u, hu, hvalue⟩, rfl⟩
    rw [Text.uppered, ← String.toList_inj, String.toList_map, String.toList_ofList,
      List.map_eq_singleton_iff] at hvalue
    obtain ⟨c, hc, rfl⟩ := hvalue
    obtain rfl : value = String.ofList [c] := by rw [← hc, String.ofList_toList]
    exact ⟨c, toUpper_mem_iff.1 hu, rfl, by rw [uppered_ofList, List.map_singleton]⟩
  · rintro ⟨c, hc, rfl, rfl⟩
    rw [uppered_ofList]
    exact ⟨⟨c.toUpper, toUpper_mem_iff.2 hc, rfl⟩, rfl⟩

/-- A value stands for a country exactly if it is two letters, which are written in upper case. -/
lemma countryTlv?_eq_some_iff : countryTlv? value = some t ↔ ∃ c d, c.isAlpha = true ∧ d.isAlpha = true ∧
    value = String.ofList [c, d] ∧ t = .ofText Tag.printableString (String.ofList [c.toUpper, d.toUpper]) := by
  rw [countryTlv?, Option.ite_none_right_eq_some, Option.some.injEq, Bool.and_eq_true, decide_eq_true_eq]
  constructor
  · rintro ⟨⟨hlength, hall⟩, rfl⟩
    rw [Text.uppered, String.length_map, ← String.length_toList, List.length_eq_two] at hlength
    obtain ⟨c, d, hvalue⟩ := hlength
    obtain rfl : value = String.ofList [c, d] := by rw [← hvalue, String.ofList_toList]
    rw [uppered_ofList] at hall ⊢
    have hletters : c.isAlpha = true ∧ d.isAlpha = true := by simpa [Text.isUpper_toUpper_iff] using hall
    exact ⟨c, d, hletters.1, hletters.2, rfl, rfl⟩
  · rintro ⟨c, d, hc, hd, rfl, rfl⟩
    rw [uppered_ofList]
    refine ⟨⟨?_, ?_⟩, rfl⟩
    · simp
    · simp [Text.isUpper_toUpper_iff, hc, hd]

/-- A label and a value are read as an attribute exactly if they stand for it. -/
lemma means_iff : Means label value a ↔
    ∃ type form t, forms.lookup (Text.lowered label) = some (type, form) ∧ form value = some t ∧ a = ⟨type, t⟩ := by
  constructor
  · intro h
    cases h with
    | dateOfBirth hlabel hyear hmonth hday hdate =>
      rw [hlabel]
      exact ⟨_, _, _, rfl, dayTlv?_eq_some_iff.2 ⟨_, _, _, _, _, _, rfl, hyear, hmonth, hday, hdate, rfl⟩, rfl⟩
    | placeOfBirth hlabel hplace =>
      rw [hlabel]
      exact ⟨_, _, _, rfl, placeTlv?_eq_some_iff.2 ⟨hplace, rfl⟩, rfl⟩
    | gender hlabel hc =>
      rw [hlabel]
      exact ⟨_, _, _, rfl, genderTlv?_eq_some_iff.2 ⟨_, hc, rfl, rfl⟩, rfl⟩
    | @country type c d hlabel hc hd =>
      have hform : forms.lookup (Text.lowered label) = some (type, countryTlv?) := by
        simp only [List.mem_cons, Prod.mk.injEq, List.not_mem_nil, or_false] at hlabel
        obtain ⟨hlabel, rfl⟩ | ⟨hlabel, rfl⟩ := hlabel
        · rw [hlabel]
          rfl
        · rw [hlabel]
          rfl
      exact ⟨_, _, _, hform, countryTlv?_eq_some_iff.2 ⟨c, d, hc, hd, rfl, rfl⟩, rfl⟩
  · rintro ⟨type, form, t, hlookup, hvalue, rfl⟩
    obtain ⟨before, after, hforms, -⟩ := List.lookup_eq_some_iff.1 hlookup
    have hmem : (Text.lowered label, type, form) ∈ forms := by simp [hforms]
    simp only [forms, List.mem_cons, Prod.mk.injEq, List.not_mem_nil, or_false] at hmem
    rcases hmem with ⟨hlabel, rfl, rfl⟩ | ⟨hlabel, rfl, rfl⟩ | ⟨hlabel, rfl, rfl⟩ | ⟨hlabel, rfl, rfl⟩ |
      ⟨hlabel, rfl, rfl⟩
    · obtain ⟨year, month, day, y, m, d, rfl, hyear, hmonth, hday, hdate, rfl⟩ := dayTlv?_eq_some_iff.1 hvalue
      exact .dateOfBirth hlabel hyear hmonth hday hdate
    · obtain ⟨hplace, rfl⟩ := placeTlv?_eq_some_iff.1 hvalue
      exact .placeOfBirth hlabel hplace
    · obtain ⟨c, hc, rfl, rfl⟩ := genderTlv?_eq_some_iff.1 hvalue
      exact .gender hlabel hc
    · obtain ⟨c, d, hc, hd, rfl, rfl⟩ := countryTlv?_eq_some_iff.1 hvalue
      exact .country (by simp [hlabel]) hc hd
    · obtain ⟨c, d, hc, hd, rfl, rfl⟩ := countryTlv?_eq_some_iff.1 hvalue
      exact .country (by simp [hlabel]) hc hd

/-- An attribute is read exactly if its value stands for it once the escapes are resolved. -/
lemma read_eq_ok_iff {raw : List Char} : read label raw = .ok a ↔
    ∃ value, Text.unescape raw = .ok value ∧ Means label (String.ofList value) a := by
  simp only [read, bind_eq_ok_iff, means_iff]
  refine exists_congr fun value => and_congr_right fun _ => ?_
  cases hlookup : forms.lookup (Text.lowered label) with
  | none => simp
  | some entry =>
    obtain ⟨type, form⟩ := entry
    cases hvalue : form (String.ofList value) with
    | none => simp [hvalue]
    | some t =>
      simp only [hvalue, pure_eq_ok_iff, Option.some.injEq]
      constructor
      · rintro rfl
        exact ⟨type, form, t, rfl, hvalue, rfl⟩
      · rintro ⟨_, _, t', ⟨⟩, ht, rfl⟩
        rw [hvalue, Option.some.injEq] at ht
        rw [ht]

/-! ### Attributes are read again -/

/-- An attribute with a value whose tag is known, under an identifier that is long enough. -/
structure IsWritable (a : DirectoryAttribute) : Prop where
  known : a.value.Known
  long : shortestOid ≤ a.type.octets.length

/-- Whatever a value stands for can be written. -/
lemma Means.isWritable (h : Means label value a) : a.IsWritable := by
  cases h with
  | dateOfBirth => exact ⟨rfl, Nat.le_of_ble_eq_true rfl⟩
  | placeOfBirth => exact ⟨rfl, Nat.le_of_ble_eq_true rfl⟩
  | gender => exact ⟨rfl, Nat.le_of_ble_eq_true rfl⟩
  | country hlabel =>
    simp only [List.mem_cons, Prod.mk.injEq, List.not_mem_nil, or_false] at hlabel
    obtain ⟨-, rfl⟩ | ⟨-, rfl⟩ := hlabel
    · exact ⟨rfl, Nat.le_of_ble_eq_true rfl⟩
    · exact ⟨rfl, Nat.le_of_ble_eq_true rfl⟩

/-- An attribute that can be written is read again if it is not too long. -/
lemma ofTlv?_tlv (ha : a.IsWritable) (hf : a.tlv.Fits) : ofTlv? a.tlv = some a := by
  have hset : (Tlv.set [a.value]).Fits := hf.of_mem (by simp)
  have hinside : a.tlv.inside? Tag.sequence = some [.ofOid a.type, .set [a.value]] := by
    refine Tlv.inside?_around hf ?_
    simp only [List.forall_mem_cons]
    exact ⟨Tlv.known_ofOid _, Tlv.known_set _, nofun⟩
  have hvalues : (Tlv.set [a.value]).inside? Tag.set = some [a.value] :=
    Tlv.inside?_around hset (by simpa using ha.known)
  have htype : (Tlv.ofOid a.type).toOid? = some a.type := Tlv.toOid?_ofOid_iff.2 ⟨rfl, ha.long⟩
  simp [ofTlv?, hinside, hvalues, htype]

/-- What is written of attributes is read again as they are exactly if it is not too long. -/
lemma decode?_listTlv_iff {as : List DirectoryAttribute} (h : ∀ a ∈ as, a.IsWritable) :
    (Tlv.decode? (listTlv as).encode).bind listOfTlv? = some as ↔ (listTlv as).Fits := by
  constructor
  · intro hread
    obtain ⟨t, ht, -⟩ := Option.bind_eq_some_iff.1 hread
    exact Tlv.fits_of_decode?_encode ht
  · intro hf
    have hinside : (listTlv as).inside? Tag.sequence = some (as.map tlv) :=
      Tlv.inside?_around hf (List.forall_mem_map.2 fun a _ => Tlv.known_sequence _)
    have hmembers : ∀ a ∈ as, ofTlv? a.tlv = some a :=
      fun a ha => ofTlv?_tlv (h a ha) (hf.of_mem (List.mem_map_of_mem ha))
    have hdecode : Tlv.decode? (listTlv as).encode = some (listTlv as) :=
      Tlv.decode?_encode ⟨Tlv.known_sequence _, hf⟩
    rw [hdecode, Option.bind_some, listOfTlv?, hinside]
    exact (mapM_map_eq_some hmembers).trans (by rw [List.map_id'])

/-! ### Digits take one octet each -/

/-- Between two places in its octets a text has digits, which are a number of sixteen bits. -/
def HasNumber (s : String) (start stop n : Nat) : Prop :=
  ∃ before digits after, s = before ++ digits ++ after ∧ before.utf8ByteSize = start ∧
    (before ++ digits).utf8ByteSize = stop ∧ ValueEncoding.WritesNat digits.toList n ∧ n < 2 ^ 16

/-- A text of digits has as many octets as characters. -/
lemma utf8ByteSize_eq_length {s : String} (h : ∀ c ∈ s.toList, c.isDigit = true) : s.utf8ByteSize = s.length := by
  have hone : ∀ c ∈ s.toList, (String.utf8EncodeChar c).length = 1 := by
    intro c hc
    have hbounds : 48 ≤ c.toNat ∧ c.toNat ≤ 57 := Char.isDigit_iff_toNat.1 (h c hc)
    rw [utf8EncodeChar_of_lt (by omega), List.length_singleton]
  have hoctets : Octets.ofString s = s.toList.flatMap String.utf8EncodeChar := by
    rw [← Octets.ofString_ofList, String.ofList_toList]
  have hsize : s.utf8ByteSize = (Octets.ofString s).length := rfl
  rw [hsize, hoctets, List.length_flatMap, List.map_congr_left hone, List.map_const', List.sum_replicate_nat,
    Nat.mul_one, String.length_toList]

/-- Digits write a number below the power of ten that they have places for. -/
lemma ofDigitChars_lt {cs : List Char} (h : ∀ c ∈ cs, c.isDigit = true) :
    Nat.ofDigitChars 10 cs 0 < 10 ^ cs.length := by
  induction cs with
  | nil => decide
  | cons c cs ih =>
    rw [List.forall_mem_cons] at h
    have hc : c.toNat - '0'.toNat ≤ 9 := Nat.sub_le_sub_right (Char.isDigit_iff_toNat.1 h.1).2 _
    have hrest := ih h.2
    rw [Nat.ofDigitChars_cons, Nat.ofDigitChars_eq_ofDigitChars_zero, Nat.mul_zero, Nat.zero_add, List.length_cons,
      Nat.pow_succ]
    calc 10 ^ cs.length * (c.toNat - '0'.toNat) + Nat.ofDigitChars 10 cs 0
        < 10 ^ cs.length * (c.toNat - '0'.toNat) + 10 ^ cs.length := Nat.add_lt_add_left hrest _
      _ = 10 ^ cs.length * (c.toNat - '0'.toNat + 1) := rfl
      _ ≤ 10 ^ cs.length * 10 := Nat.mul_le_mul_left _ (Nat.succ_le_succ hc)

/-- A numeral has as many octets as its width says. -/
lemma IsNumeral.utf8ByteSize_eq {width n : Nat} (h : IsNumeral width value n) : value.utf8ByteSize = width := by
  rw [DirectoryAttribute.utf8ByteSize_eq_length h.written.2.1, h.length]

/-- A numeral of up to four digits is a number of sixteen bits. -/
lemma IsNumeral.lt {width n : Nat} (h : IsNumeral width value n) (hwidth : width ≤ 4) : n < 2 ^ 16 := by
  have hlt := ofDigitChars_lt h.written.2.1
  rw [h.written.2.2, h.length_toList] at hlt
  have hpow : 10 ^ width ≤ 10 ^ 4 := Nat.pow_le_pow_right (by decide) hwidth
  omega

/-- A numeral in a text is found at the places where its octets are. -/
lemma IsNumeral.hasNumber {width n : Nat} {before digits after : String} (h : IsNumeral width digits n)
    (hwidth : width ≤ 4) :
    HasNumber (before ++ digits ++ after) before.utf8ByteSize (before.utf8ByteSize + width) n := by
  refine ⟨before, digits, after, rfl, rfl, ?_, h.written, h.lt hwidth⟩
  rw [String.utf8ByteSize_append, h.utf8ByteSize_eq]

/-- Eight octets of digits are a number at each of the places of a year, a month and a day. -/
lemma exists_numbers (hsize : value.utf8ByteSize = 8) (hdigits : ∀ c ∈ value.toList, c.isDigit = true) :
    ∃ y m d, HasNumber value 0 4 y ∧ HasNumber value 4 6 m ∧ HasNumber value 6 8 d ∧
      (isDay value = true ↔ Civil.IsDate y m d) := by
  rw [utf8ByteSize_eq_length hdigits] at hsize
  obtain ⟨year, month, day, y, m, d, rfl, hyear, hmonth, hday⟩ := exists_numerals hsize hdigits
  have hfirst := @IsNumeral.hasNumber 4 y "" year (month ++ day) hyear (by decide)
  have hsecond := @IsNumeral.hasNumber 2 m year month day hmonth (by decide)
  have hthird := @IsNumeral.hasNumber 2 d (year ++ month) day "" hday (by decide)
  rw [String.empty_append, ← String.append_assoc] at hfirst
  rw [hyear.utf8ByteSize_eq] at hsecond
  rw [String.append_empty, String.utf8ByteSize_append, hyear.utf8ByteSize_eq, hmonth.utf8ByteSize_eq] at hthird
  exact ⟨y, m, d, hfirst, hsecond, hthird, isDay_iff hyear hmonth hday⟩

end

/-! ### Attributes in a list -/

/-- A component that is a label, an equals sign and a raw value gives an attribute. -/
def Gives (piece : List Char) (a : DirectoryAttribute) : Prop :=
  ∃ label raw value, '=' ∉ label ∧ piece = label ++ '=' :: raw ∧ Text.unescape raw = .ok value ∧
    Means (String.ofList (Text.trim label)) (String.ofList value) a

/-- A text is read exactly if each of its components with content gives an attribute, and these are what is read. -/
lemma parse_eq_ok_iff {text : String} {as : List DirectoryAttribute} : parse text = .ok as ↔
    ∃ pieces, Text.split ',' text.toList = .ok pieces ∧
      List.Forall₂ Gives (pieces.filter fun piece => Text.HasContent piece) as := by
  have hgives : (fun piece a => ∃ label raw, '=' ∉ label ∧ piece = label ++ '=' :: raw ∧
      read (String.ofList (Text.trim label)) raw = .ok a) = Gives := by
    funext piece a
    simp only [read_eq_ok_iff, Gives, exists_and_left]
  simp only [parse, Text.components, bind_eq_ok_iff, Text.readComponents_eq_ok_iff, hgives]

/-- Attributes that were read from a text can be written. -/
lemma isWritable_of_parse {text : String} {as : List DirectoryAttribute} (h : parse text = .ok as) :
    ∀ a ∈ as, a.IsWritable := by
  obtain ⟨pieces, -, hpieces⟩ := parse_eq_ok_iff.1 h
  intro a ha
  obtain ⟨piece, -, label, raw, value, -, -, -, hmeans⟩ := exists_left_of_forall₂ hpieces ha
  exact hmeans.isWritable

/-- A text is read exactly if it is cut at commas and each piece with content gives an attribute; these are the
attributes, in their order. What is written of them, each with a set of one value, is read again unless it is too
long. A day is looked up only in a text of eight octets that are digits, which is a number at all three places. -/
theorem parse_gives (text : String) :
    (∀ as, parse text = .ok as ↔ ∃ pieces, Text.split ',' text.toList = .ok pieces ∧
      List.Forall₂ Gives (pieces.filter fun piece => Text.HasContent piece) as) ∧
    (∀ as, parse text = .ok as →
      ((Tlv.decode? (listTlv as).encode).bind listOfTlv? = some as ↔ (listTlv as).Fits)) ∧
    ∀ value : String, value.utf8ByteSize = 8 → (∀ c ∈ value.toList, c.isDigit = true) →
      ∃ y m d, HasNumber value 0 4 y ∧ HasNumber value 4 6 m ∧ HasNumber value 6 8 d ∧
        (isDay value = true ↔ Civil.IsDate y m d) :=
  ⟨fun _ => parse_eq_ok_iff, fun _ h => decode?_listTlv_iff (isWritable_of_parse h), fun _ => exists_numbers⟩

/-- A leap day at the end of a century, a place with an escaped comma, a blank component and a country twice. -/
def sampleText : String :=
  "dateOfBirth=20000229, placeOfBirth=\"Visby\\, Öst\", ,GENDER = f,countryOfCitizenship=se," ++
    "countryofresidence=No,countryOfCitizenship=SE"

/-- A day, a place, a gender and three countries. -/
def sampleAttributes : List DirectoryAttribute :=
  [⟨Oid.dateOfBirth, .ofText Tag.generalizedTime "20000229120000Z"⟩,
   ⟨Oid.placeOfBirth, .ofText Tag.utf8String "Visby, Öst"⟩, ⟨Oid.gender, .ofText Tag.printableString "F"⟩,
   ⟨Oid.countryOfCitizenship, .ofText Tag.printableString "SE"⟩,
   ⟨Oid.countryOfResidence, .ofText Tag.printableString "NO"⟩,
   ⟨Oid.countryOfCitizenship, .ofText Tag.printableString "SE"⟩]

/-- The sample is read as these attributes, and they are read again. -/
theorem sample_attributes :
    (∃ pieces, Text.split ',' sampleText.toList = .ok pieces ∧
      List.Forall₂ Gives (pieces.filter fun piece => Text.HasContent piece) sampleAttributes) ∧
    (Tlv.decode? (listTlv sampleAttributes).encode).bind listOfTlv? = some sampleAttributes ∧
    ∃ y m d, HasNumber "20000229" 0 4 y ∧ HasNumber "20000229" 4 6 m ∧ HasNumber "20000229" 6 8 d ∧
      Civil.IsDate y m d := by
  obtain ⟨hparse, hread, hday⟩ := parse_gives sampleText
  have hsample : parse sampleText = .ok sampleAttributes := by decide +kernel
  have hfits : (listTlv sampleAttributes).Fits := Tlv.fits_of_length_encode (by decide +kernel)
  have hdigits : "20000229".toList.all Char.isDigit = true := by decide
  obtain ⟨y, m, d, hy, hm, hd, hdate⟩ := hday "20000229" rfl (List.all_eq_true.1 hdigits)
  exact ⟨(hparse _).1 hsample, (hread _ hsample).2 hfits, y, m, d, hy, hm, hd, hdate.1 rfl⟩

end DirectoryAttribute

end CertAuthority
