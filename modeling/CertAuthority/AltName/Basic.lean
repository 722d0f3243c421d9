import CertAuthority.AltName.GeneralName
import CertAuthority.Name.Distinguished
import CertAuthority.Text.IpAddress

/-!
# Alternative names

The textual form `dnsName=a.example, email=x@a.example` of alternative names. `parse` reads it and
`toGeneralNames` turns every entry into the general name of its kind, in order.
-/

namespace CertAuthority

/-- The kinds of alternative names that have a textual form. -/
inductive AltNameKind where
  | rfc822Name
  | dnsName
  | uri
  | ipAddress
  | directoryName
  | registeredId
deriving DecidableEq, Repr

namespace AltNameKind

/-- The labels of the kinds, in lower case. -/
def labels : List (String × AltNameKind) :=
  [("rfc822name", rfc822Name), ("email", rfc822Name), ("dnsname", dnsName), ("dns", dnsName),
   ("uri", uri), ("uniformresourceidentifier", uri), ("uniformresourceid", uri),
   ("ipaddress", ipAddress), ("ip", ipAddress), ("directoryname", directoryName),
   ("dirname", directoryName), ("registeredid", registeredId)]

/-- The kind with a label, in either case. -/
def ofLabel? (label : String) : Option AltNameKind :=
  labels.lookup (Text.lowered label)

end AltNameKind

/-- One entry of the textual form. -/
structure AltName where
  kind : AltNameKind
  /-- Its value without quotes and escapes. -/
  value : String
deriving DecidableEq, Repr

namespace AltName

/-- A value that must be ASCII, under the name of its kind. -/
def asciiValue (label value : String) : Except ParseError String :=
  if Text.isAscii value then .ok value else .error (.invalidString label value "IA5String")

/-- The general name of an entry. A distinguished name uses the given encoding. -/
def toGeneralName (encoding : NameEncoding) (name : AltName) : Except ParseError GeneralName :=
  match name.kind with
  | .rfc822Name => .rfc822Name <$> asciiValue "rfc822Name" name.value
  | .dnsName => .dnsName <$> asciiValue "dNSName" name.value
  | .uri => .uri <$> asciiValue "uniformResourceIdentifier" name.value
  | .ipAddress =>
    match Text.ipAddress? (Text.trimmed name.value) with
    | some octets => .ok (.ipAddress octets)
    | none => .error (.invalidIpAddress name.value)
  | .directoryName => do
    let dn ← DistinguishedName.parse name.value
    return .directoryName (← dn.toName encoding)
  | .registeredId =>
    match Oid.parse (Text.trimmed name.value) with
    | .ok oid => .ok (.registeredId oid)
    | .error _ => .error (.invalidOid name.value)

/-- Reads one component of a list of alternative names. -/
def read (label : String) (raw : List Char) : Except ParseError AltName :=
  match AltNameKind.ofLabel? label with
  | none => .error (.unknownAltName label)
  | some kind => do return ⟨kind, ← Text.nonemptyValue label raw⟩

/-- Reads the comma separated form; blank components are skipped. -/
def parse (text : String) : Except ParseError (List AltName) :=
  Text.components read text

/-- Keeps the entries of the given kinds. -/
def retainKinds (names : List AltName) (kinds : List AltNameKind) : List AltName :=
  names.filter fun n => kinds.contains n.kind

/-- The general names of all entries, in order. -/
def toGeneralNames (encoding : NameEncoding) (names : List AltName) :
    Except ParseError (List GeneralName) :=
  names.mapM (toGeneralName encoding)

end AltName

end CertAuthority
