import CertAuthority.AltName.Basic
import CertAuthority.Config.ParsedProfile
import CertAuthority.Extension.Basic

/-!
# Statements of qualified certificates

A qualified certificate says under which rules it is qualified. Each statement has an identifier and,
where the identifier asks for it, more.
-/

namespace CertAuthority

open Der

/-- A statement. -/
structure QcStatement where
  id : Oid
  /-- What it says beyond its identifier. -/
  info : Option Tlv
deriving DecidableEq, Repr

/-- What the names in a certificate mean. -/
structure SemanticsInformation where
  identifier : Option Oid
  /-- Who registers names; a list that is there but empty is written as such. -/
  authorities : Option (List GeneralName)
deriving DecidableEq, Repr

/-- An amount of money: a number times a power of ten in a currency. -/
structure MonetaryValue where
  currency : String
  amount : Int
  exponent : Int
deriving DecidableEq, Repr

namespace SemanticsInformation

def tlv (s : SemanticsInformation) : Tlv :=
  .sequence (s.identifier.toList.map .ofOid ++ s.authorities.toList.map GeneralName.listTlv)

def ofTlv? (t : Tlv) (shortest : Nat := shortestOid) : Option SemanticsInformation := do
  match ← t.inside? Tag.sequence with
  | [] => return ⟨none, none⟩
  | [x] =>
    if x.tag = Tag.oid then return ⟨some (← x.toOid? shortest), none⟩
    else return ⟨none, some (← GeneralName.listOfTlv? x shortest)⟩
  | [identifier, authorities] =>
    return ⟨some (← identifier.toOid? shortest), some (← GeneralName.listOfTlv? authorities shortest)⟩
  | _ => none

end SemanticsInformation

namespace MonetaryValue

def tlv (v : MonetaryValue) : Tlv :=
  .sequence [.ofText Tag.printableString v.currency, .ofInt v.amount, .ofInt v.exponent]

def ofTlv? (t : Tlv) : Option MonetaryValue := do
  match ← t.inside? Tag.sequence with
  | [currency, amount, exponent] =>
    return ⟨← Octets.toString? (← currency.content? Tag.printableString), ← amount.toInt?,
      ← exponent.toInt?⟩
  | _ => none

end MonetaryValue

namespace QcStatement

def tlv (s : QcStatement) : Tlv :=
  .sequence (.ofOid s.id :: s.info.toList)

def ofTlv? (t : Tlv) (shortest : Nat := shortestOid) : Option QcStatement := do
  match ← t.inside? Tag.sequence with
  | [id] => return ⟨← id.toOid? shortest, none⟩
  | [id, info] => return ⟨← id.toOid? shortest, some info⟩
  | _ => none

/-- The DER form of statements, in their order. -/
def listTlv (ss : List QcStatement) : Tlv :=
  .sequence (ss.map tlv)

def listOfTlv? (t : Tlv) (shortest : Nat := shortestOid) : Option (List QcStatement) := do
  (← t.inside? Tag.sequence).mapM fun t => ofTlv? t shortest

/-- The statement on the syntax of the others, with the semantics of names if any are configured. -/
def syntaxStatement (qc : QcSettings) (parsed : ParsedProfile) (encoding : NameEncoding) :
    Except Error QcStatement := do
  let id := if qc.usePkixQcSyntaxV2 then Oid.qcSyntaxV2 else Oid.qcSyntaxV1
  let authorities ←
    if parsed.qcRaNames.isEmpty then pure none
    else
      some <$> ParsedProfile.underHeading "QC RA name"
        (AltName.toGeneralNames encoding parsed.qcRaNames)
  let semantics : SemanticsInformation := ⟨parsed.qcSemanticsId, authorities⟩
  return ⟨id, if semantics = ⟨none, none⟩ then none else some semantics.tlv⟩

/-- The statement on the limit of transactions; a limit needs an amount above zero and a currency. -/
def limitStatement (qc : QcSettings) : Except Error (List QcStatement) :=
  let currency := Text.trimmed qc.etsiValueLimitCurrency
  if qc.useEtsiValueLimit && 0 < qc.etsiValueLimit && !currency.isEmpty then
    if Text.isPrintable currency then
      .ok [⟨Oid.etsiLimitValue,
        some (MonetaryValue.tlv ⟨currency, qc.etsiValueLimit, qc.etsiValueLimitExponent⟩)⟩]
    else .error .der
  else .ok []

/-- The statement with a text; it needs an identifier and a text that is not blank. -/
def textStatement (qc : QcSettings) (parsed : ParsedProfile) : List QcStatement :=
  let text := Text.trimmed qc.customStringText
  match parsed.qcCustomOid with
  | none => []
  | some id => if text.isEmpty then [] else [⟨id, some (.ofText Tag.utf8String text)⟩]

/-- The statements that a profile asks for, in order. -/
def statements (qc : QcSettings) (parsed : ParsedProfile) (encoding : NameEncoding) :
    Except Error (List QcStatement) := do
  let first ← syntaxStatement qc parsed encoding
  let compliance : List QcStatement :=
    if qc.useEtsiQcCompliance then [⟨Oid.etsiQcCompliance, none⟩] else []
  let limit ← limitStatement qc
  let device : List QcStatement := if qc.useEtsiSscd then [⟨Oid.etsiQcSscd, none⟩] else []
  return first :: compliance ++ limit ++ device ++ textStatement qc parsed

end QcStatement

end CertAuthority
