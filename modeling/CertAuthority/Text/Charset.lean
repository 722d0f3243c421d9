import CertAuthority.Text.Blank

/-!
# Alphabets of the restricted string types

IA5String holds ASCII and PrintableString a part of it. Letters are compared without regard to case
in ASCII only.
-/

namespace CertAuthority.Text

/-- Whether all characters are ASCII, as an IA5String demands. -/
def isAscii (s : String) : Bool :=
  s.toList.all fun c => c.toNat < 128

/-- The characters of a PrintableString that are neither letters nor digits. -/
def printablePunctuation : List Char :=
  [' ', '\'', '(', ')', '+', ',', '-', '.', '/', ':', '=', '?']

/-- Whether all characters may stand in a PrintableString. -/
def isPrintable (s : String) : Bool :=
  s.toList.all fun c => c.isAlphanum || printablePunctuation.contains c

/-- A text with its ASCII letters in lower case. -/
def lowered (s : String) : String :=
  s.map Char.toLower

/-- A text with its ASCII letters in upper case. -/
def uppered (s : String) : String :=
  s.map Char.toUpper

end CertAuthority.Text
