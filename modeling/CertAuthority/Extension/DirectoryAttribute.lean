import CertAuthority.Extension.Basic
import CertAuthority.Text.Charset
import CertAuthority.Text.Escaped
import CertAuthority.Time.Civil

/-!
# Subject directory attributes

What a certificate says about a person beside the name: dates and places of birth, gender, countries.
The textual form is `dateOfBirth=19700101, countryOfCitizenship=SE`.
-/

namespace CertAuthority

open Der

/-- An attribute with one value. -/
structure DirectoryAttribute where
  type : Oid
  value : Tlv
deriving DecidableEq, Repr

namespace DirectoryAttribute

def tlv (a : DirectoryAttribute) : Tlv :=
  .sequence [.ofOid a.type, .set [a.value]]

/-- Reads the DER form of an attribute with one value. -/
def ofTlv? (t : Tlv) : Option DirectoryAttribute := do
  match ← t.inside? Tag.sequence with
  | [type, values] =>
    match ← values.inside? Tag.set with
    | [value] => return ⟨← type.toOid?, value⟩
    | _ => none
  | _ => none

def listTlv (as : List DirectoryAttribute) : Tlv :=
  .sequence (as.map tlv)

def listOfTlv? (t : Tlv) : Option (List DirectoryAttribute) := do
  (← t.inside? Tag.sequence).mapM ofTlv?

/-- Whether a text is a day of the calendar in eight digits. Any year has days. -/
def isDay (value : String) : Bool :=
  let cs := value.toList
  let year := Nat.ofDigitChars 10 (cs.take 4) 0
  let month := Nat.ofDigitChars 10 ((cs.drop 4).take 2) 0
  let day := Nat.ofDigitChars 10 (cs.drop 6) 0
  cs.length = 8 && cs.all Char.isDigit && 1 ≤ month && month ≤ 12 && 1 ≤ day &&
    day ≤ Civil.monthDays year month

/-- A day as the noon of it. -/
def dayTlv? (value : String) : Option Tlv :=
  if isDay value then some (.ofText Tag.generalizedTime (value ++ "120000Z")) else none

/-- A place, which may be any text but the empty one. -/
def placeTlv? (value : String) : Option Tlv :=
  if value.isEmpty then none else some (.ofText Tag.utf8String value)

/-- A gender, `M` or `F` in either case. -/
def genderTlv? (value : String) : Option Tlv :=
  let upper := Text.uppered value
  if upper = "M" || upper = "F" then some (.ofText Tag.printableString upper) else none

/-- A country, two letters in either case. -/
def countryTlv? (value : String) : Option Tlv :=
  let upper := Text.uppered value
  if upper.length = 2 && upper.toList.all Char.isUpper then some (.ofText Tag.printableString upper)
  else none

/-- The attributes by their labels in lower case: their identifier and the form of their value. -/
def forms : List (String × Oid × (String → Option Tlv)) :=
  [("dateofbirth", Oid.dateOfBirth, dayTlv?), ("placeofbirth", Oid.placeOfBirth, placeTlv?),
   ("gender", Oid.gender, genderTlv?), ("countryofcitizenship", Oid.countryOfCitizenship, countryTlv?),
   ("countryofresidence", Oid.countryOfResidence, countryTlv?)]

/-- Reads an attribute from its label and its raw value, in which escapes are resolved. -/
def read (label : String) (raw : List Char) : Except ParseError DirectoryAttribute := do
  let value := String.ofList (← Text.unescape raw)
  match forms.lookup (Text.lowered label) with
  | none => throw (.unknownDirectoryAttribute label)
  | some (type, form) =>
    match form value with
    | none => throw (.invalidDirectoryAttribute label value)
    | some t => return ⟨type, t⟩

/-- Reads the comma separated form; blank components are skipped. -/
def parse (text : String) : Except ParseError (List DirectoryAttribute) :=
  Text.components read text

end DirectoryAttribute

end CertAuthority
