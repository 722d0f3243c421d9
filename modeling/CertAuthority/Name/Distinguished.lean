import CertAuthority.Name.AttributeType
import CertAuthority.Name.Basic
import CertAuthority.Text.Escaped

/-!
# Distinguished names

The textual form of a name lists attributes from the most specific to the most general, as in
`CN=Alice,O=Example,C=SE`. `parse` reads it, `text` writes it with escapes, and `toName` turns it
round into the name that certificates hold, one relative name for each attribute.
-/

namespace CertAuthority

open Der

/-- The string type of values whose attribute leaves the choice. -/
inductive NameEncoding where
  | utf8
  /-- PrintableString where the value allows it, else UTF8String. -/
  | printable
deriving DecidableEq, Repr

/-- The encodings with their names in configuration texts. -/
def NameEncoding.names : List (String × NameEncoding) :=
  [("utf8", utf8), ("printable", printable)]

/-- One attribute of a textual name. -/
structure TypedValue where
  /-- What kind of attribute it is. -/
  type : Oid
  /-- Its value without quotes and escapes. -/
  value : String
deriving DecidableEq, Repr

namespace TypedValue

/-- The string type of an attribute's value in an encoding. -/
def tag (encoding : NameEncoding) (a : TypedValue) : UInt8 :=
  match AttributeType.ruleOf a.type, encoding with
  | .ia5, _ => Tag.ia5String
  | .printable, _ => Tag.printableString
  | .directory, .utf8 => Tag.utf8String
  | .directory, .printable =>
    if Text.isPrintable a.value then Tag.printableString else Tag.utf8String

/-- The tag of every value is known. -/
theorem isKnown_tag (encoding : NameEncoding) (a : TypedValue) :
    Tag.isKnown (a.tag encoding) = true := by
  unfold tag
  split
  · rfl
  · rfl
  · rfl
  · split <;> rfl

/-- The value in its string type. -/
def any (encoding : NameEncoding) (a : TypedValue) : Any :=
  ⟨.ofText (a.tag encoding) a.value, a.isKnown_tag encoding⟩

/-- The attribute with its value in the string type that its rule and the encoding ask for. -/
def encode (encoding : NameEncoding) (a : TypedValue) : Except ParseError NameAttribute :=
  match AttributeType.ruleOf a.type with
  | .ia5 =>
    if Text.isAscii a.value then .ok ⟨a.type, a.any encoding⟩
    else .error (.invalidString (AttributeType.label a.type) a.value "IA5String")
  | .printable =>
    if Text.isPrintable a.value then .ok ⟨a.type, a.any encoding⟩
    else .error (.invalidString (AttributeType.label a.type) a.value "PrintableString")
  | .directory => .ok ⟨a.type, a.any encoding⟩

end TypedValue

/-- A distinguished name in the order of its textual form, most specific attribute first. -/
structure DistinguishedName where
  attributes : List TypedValue
deriving DecidableEq, Repr

namespace DistinguishedName

/-- Reads an attribute from its label and its raw value. -/
def readAttribute (label : String) (raw : List Char) : Except ParseError TypedValue := do
  let type ← AttributeType.oid? label
  return ⟨type, ← Text.nonemptyValue label raw⟩

/-- Reads the comma separated form. Values may be quoted or escape separators; blank components are
skipped. -/
def parse (text : String) : Except ParseError DistinguishedName := do
  return ⟨← Text.components readAttribute text⟩

/-- Whether a name has no attributes. -/
def isEmpty (dn : DistinguishedName) : Bool :=
  dn.attributes.isEmpty

/-- The values of the attributes of one type, in order. -/
def values (dn : DistinguishedName) (type : Oid) : List String :=
  (dn.attributes.filter fun a => a.type == type).map TypedValue.value

/-- Keeps the attributes of the given types. -/
def retainTypes (dn : DistinguishedName) (types : List Oid) : DistinguishedName :=
  ⟨dn.attributes.filter fun a => types.contains a.type⟩

/-- Puts a suffix behind all common names. -/
def appendToCommonNames (dn : DistinguishedName) (suffix : String) : DistinguishedName :=
  ⟨dn.attributes.map fun a =>
    if a.type = .commonName then { a with value := a.value ++ suffix } else a⟩

/-- The name that certificates hold: most general attribute first, each in a relative name of its
own. -/
def toName (encoding : NameEncoding) (dn : DistinguishedName) : Except ParseError Name := do
  let attributes ← dn.attributes.reverse.mapM (TypedValue.encode encoding)
  return ⟨attributes.map RelativeName.single⟩

/-- The characters that the textual form escapes. -/
def special : List Char :=
  [',', '+', '"', '\\', '=', '<', '>', ';']

/-- A value with a backslash before each special character. -/
def escapeValue (cs : List Char) : List Char :=
  cs.flatMap fun c => if special.contains c then ['\\', c] else [c]

/-- An attribute in its textual form. -/
def attributeText (a : TypedValue) : String :=
  AttributeType.label a.type ++ "=" ++ String.ofList (escapeValue a.value.toList)

/-- The textual form: labels and escaped values, joined by commas. -/
def text (dn : DistinguishedName) : String :=
  ",".intercalate (dn.attributes.map attributeText)

end DistinguishedName

end CertAuthority
