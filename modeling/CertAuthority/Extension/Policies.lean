import CertAuthority.Extension.Basic
import CertAuthority.Text.Charset
import CertAuthority.Text.Utf16

/-!
# Certificate policies

The policies under which a certificate was issued, with notices and places for those who rely on it.
-/

namespace CertAuthority

open Der

/-- What is said about a policy. -/
inductive PolicyQualifier where
  /-- A notice to users, in UTF-8 or UTF-16. -/
  | userNotice (utf8 : Bool) (text : String)
  | practiceStatement (uri : String)
deriving DecidableEq, Repr

namespace PolicyQualifier

/-- The text of a notice in one of two string types. -/
def noticeTlv (utf8 : Bool) (text : String) : Tlv :=
  if utf8 then .ofText Tag.utf8String text else ⟨Tag.bmpString, Text.utf16Encode text⟩

/-- Reads the text of a notice and which of the two string types it has. -/
def noticeOfTlv? (t : Tlv) : Option (Bool × String) :=
  if t.tag = Tag.utf8String then (Octets.toString? t.content).map (true, ·)
  else if t.tag = Tag.bmpString then (Text.utf16Decode? t.content).map (false, ·)
  else none

def tlv : PolicyQualifier → Tlv
  | userNotice utf8 text =>
    .sequence [.ofOid Oid.userNoticeQualifier, .sequence [noticeTlv utf8 text]]
  | practiceStatement uri => .sequence [.ofOid Oid.cpsQualifier, .ofText Tag.ia5String uri]

def ofTlv? (t : Tlv) : Option PolicyQualifier := do
  match ← t.inside? Tag.sequence with
  | [id, value] =>
    let oid ← id.toOid?
    if oid = Oid.userNoticeQualifier then
      match ← value.inside? Tag.sequence with
      | [text] =>
        let (utf8, s) ← noticeOfTlv? text
        return userNotice utf8 s
      | _ => none
    else if oid = Oid.cpsQualifier then
      return practiceStatement (← Octets.toString? (← value.content? Tag.ia5String))
    else none
  | _ => none

end PolicyQualifier

/-- A policy and what is said about it. -/
structure PolicyInformation where
  policy : Oid
  qualifiers : List PolicyQualifier
deriving DecidableEq, Repr

namespace PolicyInformation

def tlv (p : PolicyInformation) : Tlv :=
  .sequence (.ofOid p.policy ::
    if p.qualifiers.isEmpty then [] else [.sequence (p.qualifiers.map PolicyQualifier.tlv)])

def ofTlv? (t : Tlv) : Option PolicyInformation := do
  match ← t.inside? Tag.sequence with
  | [policy] => return ⟨← policy.toOid?, []⟩
  | [policy, qualifiers] =>
    return ⟨← policy.toOid?, ← (← qualifiers.inside? Tag.sequence).mapM PolicyQualifier.ofTlv?⟩
  | _ => none

def listTlv (ps : List PolicyInformation) : Tlv :=
  .sequence (ps.map tlv)

def listOfTlv? (t : Tlv) : Option (List PolicyInformation) := do
  (← t.inside? Tag.sequence).mapM ofTlv?

/-- Policies of which the first has the qualifiers. -/
def ofIds (ids : List Oid) (qualifiers : List PolicyQualifier) : List PolicyInformation :=
  match ids with
  | [] => []
  | id :: rest => ⟨id, qualifiers⟩ :: rest.map fun other => ⟨other, []⟩

end PolicyInformation

end CertAuthority
