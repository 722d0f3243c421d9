import CertAuthority.Text.Invisible

/-!
# Quoted texts in messages

Messages show a text that came from outside between double quotes, with everything that would not
survive a line of output escaped: quotes and backslashes, the usual control characters by letter,
and whatever is invisible or combining by its number in hexadecimal.
-/

namespace CertAuthority.Text

/-- The lower-case hexadecimal numeral of a number, without padding. -/
def hexNumeral (n : Nat) : List Char :=
  Nat.toDigits 16 n

/-- A character in quoted text, with an escape if it needs one. -/
def quoteChar (c : Char) : List Char :=
  if c = '"' then ['\\', '"']
  else if c = '\\' then ['\\', '\\']
  else if c = '\n' then ['\\', 'n']
  else if c = '\r' then ['\\', 'r']
  else if c = '\t' then ['\\', 't']
  else if c.toNat = 0 then ['\\', '0']
  else if isInvisible c then ['\\', 'u', '\x7b'] ++ hexNumeral c.toNat ++ ['\x7d']
  else [c]

/-- A text between double quotes, escaped. -/
def quoted (s : String) : String :=
  String.ofList ('"' :: s.toList.flatMap quoteChar ++ ['"'])

end CertAuthority.Text
