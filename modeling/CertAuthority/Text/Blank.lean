/-!
# Blank characters

Configuration texts are trimmed of white space in the sense of the Unicode property `White_Space`,
which is wider than the blanks of ASCII.
-/

namespace CertAuthority.Text

/-- A character with the Unicode property `White_Space`. -/
def isBlank (c : Char) : Bool :=
  let n := c.toNat
  (9 ≤ n && n ≤ 13) || n == 0x20 || n == 0x85 || n == 0xA0 || n == 0x1680 ||
    (0x2000 ≤ n && n ≤ 0x200A) || n == 0x2028 || n == 0x2029 || n == 0x202F || n == 0x205F ||
    n == 0x3000

/-- Drops leading and trailing blanks. -/
def trim (cs : List Char) : List Char :=
  ((cs.dropWhile isBlank).reverse.dropWhile isBlank).reverse

/-- Drops leading and trailing blanks of a text. -/
def trimmed (s : String) : String :=
  String.ofList (trim s.toList)

/-- Whether a text has nothing but blanks. -/
def isAllBlank (cs : List Char) : Bool :=
  cs.all isBlank

end CertAuthority.Text
