import CertAuthority.Oid.Known
import CertAuthority.Text.Charset
import CertAuthority.Text.ParseError

/-!
# Attribute types of textual names

The textual form of a name labels each value with a known name such as `CN`, in either case, or with
a dotted object identifier. `AttributeType.oid` finds the identifier for a label and
`AttributeType.label` the label that is printed for an identifier.
-/

namespace CertAuthority

/-- Which string type the values of an attribute have. -/
inductive StringRule where
  /-- The type that the name encoding chooses. -/
  | directory
  | printable
  | ia5
deriving DecidableEq, Repr

/-- A known attribute type. -/
structure AttributeType where
  /-- Its names in upper case; the first one is printed. -/
  names : List String
  oid : Oid
  /-- The string type of its values. -/
  rule : StringRule := .directory
deriving DecidableEq, Repr

namespace AttributeType

/-- The types that are known by name. -/
def table : List AttributeType :=
  [{ names := ["CN", "COMMONNAME"], oid := .commonName },
   { names := ["SN", "SERIALNUMBER"], oid := .serialNumber, rule := .printable },
   { names := ["C", "COUNTRY"], oid := .country, rule := .printable },
   { names := ["L", "LOCALITY"], oid := .locality },
   { names := ["ST", "STATE"], oid := .state },
   { names := ["STREET"], oid := .street },
   { names := ["O", "ORGANIZATION"], oid := .organization },
   { names := ["OU", "ORGANIZATIONALUNIT"], oid := .organizationalUnit },
   { names := ["T", "TITLE"], oid := .title },
   { names := ["POSTALCODE"], oid := .postalCode },
   { names := ["SURNAME"], oid := .surname },
   { names := ["GIVENNAME"], oid := .givenName },
   { names := ["INITIALS"], oid := .initials },
   { names := ["GENERATIONQUALIFIER"], oid := .generationQualifier },
   { names := ["DNQUALIFIER"], oid := .dnQualifier, rule := .printable },
   { names := ["PSEUDONYM"], oid := .pseudonym },
   { names := ["DC"], oid := .domainComponent, rule := .ia5 },
   { names := ["UID"], oid := .userId },
   { names := ["E", "EMAILADDRESS", "EMAIL"], oid := .emailAddress, rule := .ia5 }]

/-- The known type with a name, in either case. -/
def ofName? (name : String) : Option AttributeType :=
  table.find? fun t => t.names.contains (Text.uppered name)

/-- The known type with an identifier. -/
def ofOid? (oid : Oid) : Option AttributeType :=
  table.find? fun t => t.oid == oid

/-- Drops the mark `OID.` or `oid.` that may stand before a dotted identifier. -/
def dropMark : List Char → List Char
  | 'O' :: 'I' :: 'D' :: '.' :: rest => rest
  | 'o' :: 'i' :: 'd' :: '.' :: rest => rest
  | cs => cs

/-- The type that a label stands for, a name or a dotted identifier with or without a mark. -/
def oid? (label : String) : Except ParseError Oid :=
  let name := Text.trimmed label
  match ofName? name with
  | some known => .ok known.oid
  | none =>
    let dotted := dropMark name.toList
    if (dotted.headD ' ').isDigit then
      match Oid.parse (String.ofList dotted) with
      | .ok oid => .ok oid
      | .error _ => .error (.invalidOid name)
    else .error (.unknownAttribute name)

/-- The label of an identifier: its first known name, else its dotted form. -/
def label (oid : Oid) : String :=
  match ofOid? oid with
  | some known => known.names.headD oid.text
  | none => oid.text

/-- The string type of the values of an attribute. -/
def ruleOf (oid : Oid) : StringRule :=
  match ofOid? oid with
  | some known => known.rule
  | none => .directory

end AttributeType

end CertAuthority
