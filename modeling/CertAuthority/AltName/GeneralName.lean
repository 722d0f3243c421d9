import CertAuthority.Name.Basic
import CertAuthority.Text.Charset

/-!
# General names

The names that extensions hold for a subject or an authority besides its distinguished name.
-/

namespace CertAuthority

open Der

/-- A name of one of several kinds. -/
inductive GeneralName where
  | rfc822Name (address : String)
  | dnsName (name : String)
  /-- A name of the distinguished kind. -/
  | directoryName (name : Name)
  | uri (locator : String)
  /-- The octets of an internet address. -/
  | ipAddress (octets : Octets)
  | registeredId (oid : Oid)
deriving DecidableEq, Repr

namespace GeneralName

/-- The DER form; the kinds are told apart by their tags. -/
def tlv : GeneralName → Tlv
  | .rfc822Name s => .ofText (Tag.context 1) s
  | .dnsName s => .ofText (Tag.context 2) s
  | .directoryName n => .explicit 4 n.tlv
  | .uri s => .ofText (Tag.context 6) s
  | .ipAddress octets => ⟨Tag.context 7, octets⟩
  | .registeredId oid => ⟨Tag.context 8, oid.octets⟩

/-- The text of an element whose content is ASCII. -/
def asciiText? (t : Tlv) : Option String := do
  let s ← Octets.toString? t.content
  if Text.isAscii s then some s else none

def ofTlv? (t : Tlv) (shortest : Nat := shortestOid) : Option GeneralName :=
  if t.tag = Tag.context 1 then (asciiText? t).map .rfc822Name
  else if t.tag = Tag.context 2 then (asciiText? t).map .dnsName
  else if t.tag = Tag.contextConstructed 4 then do
    return .directoryName (← Name.ofTlv? (← t.explicit? 4) shortest)
  else if t.tag = Tag.context 6 then (asciiText? t).map .uri
  else if t.tag = Tag.context 7 then some (.ipAddress t.content)
  else if t.tag = Tag.context 8 then (Tlv.toOid? ⟨Tag.oid, t.content⟩ shortest).map .registeredId
  else none

def listTlv (names : List GeneralName) : Tlv :=
  .sequence (names.map tlv)

/-- Reads the DER form of a list of general names. -/
def listOfTlv? (t : Tlv) (shortest : Nat := shortestOid) : Option (List GeneralName) := do
  (← t.inside? Tag.sequence).mapM fun t => ofTlv? t shortest

end GeneralName

end CertAuthority
