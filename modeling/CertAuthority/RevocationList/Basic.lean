import CertAuthority.Certificate.Basic

/-!
# Revocation lists

A revocation list says which certificates of an authority must not be relied on any more, since when
and why.
-/

namespace CertAuthority

open Der

/-- Why a certificate is revoked. -/
inductive RevocationReason where
  | unspecified
  /-- The key of the subject is in wrong hands. -/
  | keyCompromise
  /-- The key of the authority is in wrong hands. -/
  | caCompromise
  | affiliationChanged
  | superseded
  /-- The subject does not do any more what the certificate was for. -/
  | cessationOfOperation
  | certificateHold
  /-- The certificate is not revoked any more. -/
  | removeFromCrl
  /-- The subject may not do any more what the certificate was for. -/
  | privilegeWithdrawn
  /-- The key of an authority for attributes is in wrong hands. -/
  | aaCompromise
deriving DecidableEq, Repr

namespace RevocationReason

/-- The reasons with their names in configuration texts. -/
def names : List (String × RevocationReason) :=
  [("unspecified", unspecified), ("key_compromise", keyCompromise),
   ("ca_compromise", caCompromise), ("affiliation_changed", affiliationChanged),
   ("superseded", superseded), ("cessation_of_operation", cessationOfOperation),
   ("certificate_hold", certificateHold), ("remove_from_crl", removeFromCrl),
   ("privilege_withdrawn", privilegeWithdrawn), ("aa_compromise", aaCompromise)]

/-- The number of a reason; seven is not used. -/
def code : RevocationReason → UInt8
  | unspecified => 0
  | keyCompromise => 1
  | caCompromise => 2
  | affiliationChanged => 3
  | superseded => 4
  | cessationOfOperation => 5
  | certificateHold => 6
  | removeFromCrl => 8
  | privilegeWithdrawn => 9
  | aaCompromise => 10

def tlv (r : RevocationReason) : Tlv :=
  ⟨Tag.enumerated, [r.code]⟩

def ofTlv? (t : Tlv) : Option RevocationReason :=
  (names.map Prod.snd).find? fun r => r.tlv = t

end RevocationReason

/-- One certificate in a revocation list. -/
structure RevokedCertificate where
  serial : SerialNumber
  date : Timestamp
  /-- What else is said about it. -/
  extensions : Option (List Extension)
deriving DecidableEq, Repr

/-- The signed part of a revocation list. -/
structure TbsRevocationList where
  version : Nat
  signature : AlgorithmIdentifier
  issuer : Name
  thisUpdate : Timestamp
  /-- Until when there will be a newer one. -/
  nextUpdate : Option Timestamp
  revoked : Option (List RevokedCertificate)
  extensions : Option (List Extension)
deriving DecidableEq, Repr

/-- A revocation list. -/
structure RevocationList where
  tbs : TbsRevocationList
  algorithm : AlgorithmIdentifier
  signature : BitString
deriving DecidableEq, Repr

namespace RevokedCertificate

def tlv (c : RevokedCertificate) : Tlv :=
  .sequence ([c.serial.tlv, c.date.tlv] ++ c.extensions.toList.map Extension.listTlv)

def ofTlv? (t : Tlv) (shortest : Nat := shortestOid) : Option RevokedCertificate := do
  match ← t.inside? Tag.sequence with
  | [serial, date] => return ⟨← SerialNumber.ofTlv? serial, ← Timestamp.ofTlv? date, none⟩
  | [serial, date, extensions] =>
    return ⟨← SerialNumber.ofTlv? serial, ← Timestamp.ofTlv? date,
      some (← Extension.listOfTlv? extensions shortest)⟩
  | _ => none

end RevokedCertificate

namespace TbsRevocationList

/-- The version of revocation lists that have extensions. -/
def v2 : Nat := 1

def tlv (l : TbsRevocationList) : Tlv :=
  .sequence
    ([.ofInt l.version, l.signature.tlv, l.issuer.tlv, l.thisUpdate.tlv] ++
      l.nextUpdate.toList.map Timestamp.tlv ++
      l.revoked.toList.map (fun cs => .sequence (cs.map RevokedCertificate.tlv)) ++
      l.extensions.toList.map fun es => .explicit 0 (Extension.listTlv es))

/-- Takes an element from the front if it passes a test. -/
def takeIf (test : Tlv → Bool) : List Tlv → Option Tlv × List Tlv
  | [] => (none, [])
  | t :: rest => if test t then (some t, rest) else (none, t :: rest)

/-- Whether an element is a time. -/
def isTime (t : Tlv) : Bool :=
  t.tag == Tag.utcTime || t.tag == Tag.generalizedTime

def ofTlv? (t : Tlv) (shortest : Nat := shortestOid) : Option TbsRevocationList := do
  match ← t.inside? Tag.sequence with
  | version :: signature :: issuer :: thisUpdate :: rest =>
    let (nextUpdate, rest) := takeIf isTime rest
    let (revoked, rest) := takeIf (fun t => t.tag == Tag.sequence) rest
    let (extensions, rest) := Field.take 0 rest
    if !rest.isEmpty then none
    return {
      version := ← version.toNat?
      signature := ← AlgorithmIdentifier.ofTlv? signature shortest
      issuer := ← Name.ofTlv? issuer shortest
      thisUpdate := ← Timestamp.ofTlv? thisUpdate
      nextUpdate := ← Field.optional Timestamp.ofTlv? nextUpdate
      revoked := ← Field.optional
        (fun t => do
          (← t.inside? Tag.sequence).mapM fun t => RevokedCertificate.ofTlv? t shortest) revoked
      extensions := ← Field.optional
        (fun t => do Extension.listOfTlv? (← t.explicit? 0) shortest) extensions }
  | _ => none

end TbsRevocationList

namespace RevocationList

def tlv (l : RevocationList) : Tlv :=
  .sequence [l.tbs.tlv, l.algorithm.tlv, .ofBitString l.signature]

def ofTlv? (t : Tlv) (shortest : Nat := shortestOid) : Option RevocationList := do
  match ← t.inside? Tag.sequence with
  | [tbs, algorithm, signature] =>
    return ⟨← TbsRevocationList.ofTlv? tbs shortest,
      ← AlgorithmIdentifier.ofTlv? algorithm shortest, ← signature.toBitString?⟩
  | _ => none

def decode? (bs : Octets) (shortest : Nat := shortestOid) : Option RevocationList := do
  ofTlv? (← Tlv.decode? bs) shortest

end RevocationList

end CertAuthority
