import CertAuthority.AltName.GeneralName
import CertAuthority.Extension.Basic

/-!
# Where to ask

The extensions that say where revocation lists are and where the status of a certificate can be asked
for.
-/

namespace CertAuthority

open Der

/-- A place where a revocation list is, or its issuer, or both. -/
structure DistributionPoint where
  uri : Option String
  crlIssuer : Option Name
deriving DecidableEq, Repr

namespace DistributionPoint

def tlv (p : DistributionPoint) : Tlv :=
  .sequence
    ((p.uri.toList.map fun uri =>
        .explicit 0 (.around (Tag.contextConstructed 0) [(GeneralName.uri uri).tlv])) ++
      p.crlIssuer.toList.map fun name =>
        .around (Tag.contextConstructed 2) [(GeneralName.directoryName name).tlv])

/-- Reads the one place of a point. -/
def uriOfTlv? (t : Tlv) : Option String := do
  match ← (← t.explicit? 0).inside? (Tag.contextConstructed 0) with
  | [name] =>
    match ← GeneralName.ofTlv? name with
    | .uri uri => return uri
    | _ => none
  | _ => none

/-- Reads the one issuer of a point. -/
def issuerOfTlv? (t : Tlv) : Option Name := do
  match ← t.inside? (Tag.contextConstructed 2) with
  | [name] =>
    match ← GeneralName.ofTlv? name with
    | .directoryName issuer => return issuer
    | _ => none
  | _ => none

def ofTlv? (t : Tlv) : Option DistributionPoint := do
  match ← t.inside? Tag.sequence with
  | [] => return ⟨none, none⟩
  | [x] =>
    if x.tag = Tag.contextConstructed 0 then return ⟨some (← uriOfTlv? x), none⟩
    else return ⟨none, some (← issuerOfTlv? x)⟩
  | [uri, issuer] => return ⟨some (← uriOfTlv? uri), some (← issuerOfTlv? issuer)⟩
  | _ => none

/-- The DER form of a list of distribution points. -/
def listTlv (ps : List DistributionPoint) : Tlv :=
  .sequence (ps.map tlv)

/-- Reads the DER form of a list of distribution points. -/
def listOfTlv? (t : Tlv) : Option (List DistributionPoint) := do
  (← t.inside? Tag.sequence).mapM ofTlv?

/-- Places and issuers paired by position, until both lists end. -/
def paired (uris : List String) (names : List Name) : List DistributionPoint :=
  (List.range (max uris.length names.length)).map fun i => ⟨uris[i]?, names[i]?⟩

end DistributionPoint

namespace StatusAccess

/-- The DER form of the place where the status of a certificate can be asked for. -/
def tlv (uri : String) : Tlv :=
  .sequence [.sequence [.ofOid Oid.ocspAccess, (GeneralName.uri uri).tlv]]

def ofTlv? (t : Tlv) : Option String := do
  match ← t.inside? Tag.sequence with
  | [access] =>
    match ← access.inside? Tag.sequence with
    | [method, location] =>
      if (← method.toOid?) ≠ Oid.ocspAccess then none
      match ← GeneralName.ofTlv? location with
      | .uri uri => return uri
      | _ => none
    | _ => none
  | _ => none

end StatusAccess

end CertAuthority
