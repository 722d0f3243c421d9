import CertAuthority.Config.Authority
import CertAuthority.Request
import CertAuthority.Text.Hex

/-!
# Extensions that are not built in

A plugin adds one extension to certificates; its value may depend on everything that is known when a
certificate is issued. Most plugins have a fixed value that a configuration gives as a text together
with the type it stands for.
-/

namespace CertAuthority

open Der

/-- An extension that is not built in. -/
structure Plugin where
  oid : Oid
  critical : Bool
  /-- The DER octets of its value for a certificate. -/
  value : Request → Authority → Profile → Except Error Octets

/-- The type that the text of a fixed value stands for. -/
inductive ValueEncoding where
  | utf8String
  | ia5String
  /-- A text in the alphabet of PrintableString. -/
  | printableString
  /-- A decimal number of 64 bits with a sign. -/
  | integer
  | boolean
  /-- No value; the text is not looked at. -/
  | null
  | octetString
  | raw
deriving DecidableEq, Repr

namespace ValueEncoding

/-- The types with their names in configuration texts. -/
def names : List (String × ValueEncoding) :=
  [("utf8string", utf8String), ("ia5string", ia5String), ("printablestring", printableString),
   ("integer", integer), ("boolean", boolean), ("null", null), ("octetstring", octetString),
   ("raw", raw)]

/-- The name of a type in messages. -/
def text : ValueEncoding → String
  | utf8String => "Utf8String"
  | ia5String => "Ia5String"
  | printableString => "PrintableString"
  | integer => "Integer"
  | boolean => "Boolean"
  | null => "Null"
  | octetString => "OctetString"
  | raw => "Raw"

/-- The number that decimal digits write. -/
def digits? (cs : List Char) : Option Nat :=
  if !cs.isEmpty && cs.all Char.isDigit then some (Nat.ofDigitChars 10 cs 0) else none

/-- Reads a decimal number of 64 bits, with or without a sign. -/
def integer? (cs : List Char) : Option Int := do
  let n : Int ← match cs with
    | '-' :: rest => (digits? rest).map fun n => -(n : Int)
    | '+' :: rest => (digits? rest).map fun n => (n : Int)
    | _ => (digits? cs).map fun n => (n : Int)
  if -0x8000000000000000 ≤ n && n < 0x8000000000000000 then some n else none

/-- The element that a text stands for. Blanks around numbers, truth values and hexadecimal digits do
not matter. -/
def element? (encoding : ValueEncoding) (text : String) : Option Tlv :=
  let cs := Text.trim text.toList
  match encoding with
  | utf8String => some (.ofText Tag.utf8String text)
  | ia5String => if Text.isAscii text then some (.ofText Tag.ia5String text) else none
  | printableString =>
    if Text.isPrintable text then some (.ofText Tag.printableString text) else none
  | integer => (integer? cs).map .ofInt
  | boolean =>
    if cs = "true".toList then some (.ofBool true)
    else if cs = "false".toList then some (.ofBool false)
    else none
  | null => some .null
  | octetString => (Text.hexDecode? cs).map .ofOctets
  | raw => (Text.hexDecode? cs).bind Tlv.decode?

end ValueEncoding

/-- A plugin with a fixed value; a text that does not fit its type is refused. -/
def Plugin.fixed (oid : Oid) (critical : Bool) (encoding : ValueEncoding) (text : String) :
    Except Error Plugin :=
  match encoding.element? text with
  | some t => .ok ⟨oid, critical, fun _ _ _ => .ok t.encode⟩
  | none =>
    .error (.invalidProfile
      ("extension " ++ oid.text ++ ": invalid " ++ encoding.text ++ " value " ++ Text.quoted text))

end CertAuthority
