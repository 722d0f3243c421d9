import CertAuthority.Proofs.AltName.Encoded
import CertAuthority.Proofs.Certificate.Run
import CertAuthority.Proofs.Config.Loaded
import CertAuthority.Proofs.Der.Integer
import CertAuthority.Proofs.Extension.Resolve
import CertAuthority.Proofs.Text.Entries

/-!
# Statements of qualified certificates

The statements of a profile that was parsed are those that its settings ask for, in a fixed order
(`QcStatement.statements_eq`): only the names of those who register names can still be refused, since they are
written only now. The statements are read again, and what each of them says is what the settings say
(`ExtensionContext.qc_statements`).
-/

namespace CertAuthority

open Der

/-! ### Texts that were parsed -/

namespace ParsedProfile

/-- An identifier that may be left out is there exactly if its text is not blank. -/
lemma optionalOid_eq_ok {purpose text : String} {id : Option Oid} (h : optionalOid purpose text = .ok id) :
    (id = none ↔ Text.trimmed text = "") ∧ ∀ oid ∈ id, Oid.parse (Text.trimmed text) = .ok oid := by
  simp only [optionalOid, String.isEmpty_iff] at h
  split at h
  · rename_i hblank
    cases h
    exact ⟨iff_of_true rfl hblank, nofun⟩
  · rename_i hsome
    obtain ⟨oid, hoid, rfl⟩ := map_eq_ok_iff.1 h
    have hparse := mapError_eq_ok_iff.1 hoid
    rw [Text.trimmed_trimmed] at hparse
    refine ⟨iff_of_false nofun hsome, ?_⟩
    rintro _ ⟨⟩
    exact hparse

/-- A malformed text of a configuration is reported under its heading. -/
lemma underHeading_eq_error_iff {α : Type} {heading : String} {r : Except ParseError α} {e : Error} :
    underHeading heading r = .error e ↔ ∃ p, r = .error p ∧ e = .invalidProfile (heading ++ ": " ++ p.message) := by
  cases r with
  | error p => simp [underHeading, Except.mapError, eq_comm]
  | ok a => simp [underHeading, Except.mapError]

end ParsedProfile

/-! ### What statements say is read again -/

namespace SemanticsInformation

variable {s x : SemanticsInformation} {shortest : Nat}

/-- The information about semantics has a known tag, that of a sequence. -/
@[simp] lemma known_tlv (s : SemanticsInformation) : s.tlv.Known :=
  Tlv.known_sequence _

/-- The semantics of names are read again exactly if the identifiers in them are long enough. -/
lemma ofTlv?_tlv_iff (hf : s.tlv.Fits) (hascii : ∀ gs ∈ s.authorities, ∀ g ∈ gs, g.IsAscii) :
    ofTlv? s.tlv shortest = some x ↔ x = s ∧ (∀ o ∈ s.identifier, shortest ≤ o.octets.length) ∧
      ∀ gs ∈ s.authorities, ∀ g ∈ gs, ∀ o ∈ g.identifiers, shortest ≤ o.octets.length := by
  obtain ⟨identifier, authorities⟩ := s
  have hinside : (tlv ⟨identifier, authorities⟩).inside? Tag.sequence =
      some (identifier.toList.map .ofOid ++ authorities.toList.map GeneralName.listTlv) := by
    refine Tlv.inside?_around hf fun t ht => ?_
    obtain ht | ht := List.mem_append.1 ht
    · obtain ⟨oid, -, rfl⟩ := List.mem_map.1 ht
      exact Tlv.known_ofOid oid
    · obtain ⟨gs, -, rfl⟩ := List.mem_map.1 ht
      exact GeneralName.known_listTlv gs
  have hlist : ∀ gs ∈ authorities, ∀ others, GeneralName.listOfTlv? (GeneralName.listTlv gs) shortest = some others ↔
      others = gs ∧ ∀ g ∈ gs, ∀ o ∈ g.identifiers, shortest ≤ o.octets.length := by
    intro gs hgs others
    refine GeneralName.listOfTlv?_listTlv_iff (hascii gs hgs) (hf.of_mem ?_)
    exact List.mem_append_right _ (List.mem_map_of_mem (Option.mem_toList.2 hgs))
  rw [ofTlv?, hinside]
  simp only [Option.bind_eq_bind, Option.bind_some]
  -- The reader tells the two optional parts apart by the tag of the first element.
  cases identifier with
  | none =>
    cases authorities with
    | none => simp [eq_comm]
    | some gs =>
      have htag : (GeneralName.listTlv gs).tag ≠ Tag.oid := show Tag.sequence ≠ Tag.oid by decide
      simp only [Option.toList_none, Option.toList_some, List.map_nil, List.map_cons, List.nil_append, if_neg htag,
        Option.pure_def, Option.bind_eq_some_iff, hlist gs rfl, Option.some.injEq]
      constructor
      · rintro ⟨_, ⟨rfl, hgs⟩, rfl⟩
        exact ⟨rfl, nofun, fun _ h => Option.some.inj h ▸ hgs⟩
      · rintro ⟨rfl, -, hgs⟩
        exact ⟨gs, ⟨rfl, hgs gs rfl⟩, rfl⟩
  | some oid =>
    cases authorities with
    | none =>
      have htag : (Tlv.ofOid oid).tag = Tag.oid := rfl
      simp only [Option.toList_none, Option.toList_some, List.map_nil, List.map_cons, List.append_nil, if_pos htag,
        Option.pure_def, Option.bind_eq_some_iff, Tlv.toOid?_ofOid_iff, Option.some.injEq]
      constructor
      · rintro ⟨_, ⟨rfl, hoid⟩, rfl⟩
        exact ⟨rfl, fun _ h => Option.some.inj h ▸ hoid, nofun⟩
      · rintro ⟨rfl, hoid, -⟩
        exact ⟨oid, ⟨rfl, hoid oid rfl⟩, rfl⟩
    | some gs =>
      simp only [Option.toList_some, List.map_nil, List.map_cons, List.cons_append, List.nil_append, Option.pure_def,
        Option.bind_eq_some_iff, Tlv.toOid?_ofOid_iff, hlist gs rfl, Option.some.injEq]
      constructor
      · rintro ⟨_, ⟨rfl, hoid⟩, _, ⟨rfl, hgs⟩, rfl⟩
        exact ⟨rfl, fun _ h => Option.some.inj h ▸ hoid, fun _ h => Option.some.inj h ▸ hgs⟩
      · rintro ⟨rfl, hoid, hgs⟩
        exact ⟨oid, ⟨rfl, hoid oid rfl⟩, gs, ⟨rfl, hgs gs rfl⟩, rfl⟩

end SemanticsInformation

/-- An amount of money is read again if it is not too long. -/
lemma MonetaryValue.ofTlv?_tlv {v : MonetaryValue} (hf : v.tlv.Fits) : ofTlv? v.tlv = some v := by
  have hinside : v.tlv.inside? Tag.sequence =
      some [.ofText Tag.printableString v.currency, .ofInt v.amount, .ofInt v.exponent] := by
    refine Tlv.inside?_around hf ?_
    simp only [List.forall_mem_cons]
    exact ⟨rfl, Tlv.known_ofInt _, Tlv.known_ofInt _, nofun⟩
  have hcurrency : (Tlv.ofText Tag.printableString v.currency).content? Tag.printableString =
      some (Octets.ofString v.currency) := by
    rw [Tlv.content?, Tlv.ofText, if_pos rfl]
  rw [ofTlv?, hinside]
  simp [hcurrency]

namespace QcStatement

variable {s x : QcStatement} {ss xs : List QcStatement} {shortest : Nat}

/-- A statement is read again exactly if its identifier is long enough. -/
lemma ofTlv?_tlv_iff (hf : s.tlv.Fits) (hknown : ∀ t ∈ s.info, t.Known) :
    ofTlv? s.tlv shortest = some x ↔ x = s ∧ shortest ≤ s.id.octets.length := by
  obtain ⟨id, info⟩ := s
  have hinside : (tlv ⟨id, info⟩).inside? Tag.sequence = some (.ofOid id :: info.toList) := by
    refine Tlv.inside?_around hf (List.forall_mem_cons.2 ⟨Tlv.known_ofOid id, fun t ht => ?_⟩)
    exact hknown t (Option.mem_toList.1 ht)
  rw [ofTlv?, hinside]
  cases info with
  | none =>
    simp only [Option.toList_none, Option.bind_eq_bind, Option.bind_some]
    exact bind_eq_some_iff_of_part (fun _ => Tlv.toOid?_ofOid_iff) rfl
  | some t =>
    simp only [Option.toList_some, Option.bind_eq_bind, Option.bind_some]
    exact bind_eq_some_iff_of_part (fun _ => Tlv.toOid?_ofOid_iff) rfl

/-- Statements are read again exactly if their identifiers are long enough. -/
lemma listOfTlv?_listTlv_iff (hf : (listTlv ss).Fits) (hknown : ∀ s ∈ ss, ∀ t ∈ s.info, t.Known) :
    listOfTlv? (listTlv ss) shortest = some xs ↔ xs = ss ∧ ∀ s ∈ ss, shortest ≤ s.id.octets.length := by
  have hinside : (listTlv ss).inside? Tag.sequence = some (ss.map tlv) :=
    Tlv.inside?_around hf (List.forall_mem_map.2 fun s _ => Tlv.known_sequence _)
  rw [listOfTlv?, hinside]
  exact mapM_map_eq_some_iff fun s hs x => ofTlv?_tlv_iff (hf.of_mem (List.mem_map_of_mem hs)) (hknown s hs)

/-! ### The statements that settings ask for -/

variable {qc : QcSettings} {parsed : ParsedProfile} {encoding : NameEncoding} {names : List GeneralName}

/-- What names mean where these are the names of those who register names. -/
def semantics (parsed : ParsedProfile) (names : List GeneralName) : SemanticsInformation :=
  ⟨parsed.qcSemanticsId, if names = [] then none else some names⟩

/-- What the statement on the syntax says, if anything. -/
def semanticsInfo (parsed : ParsedProfile) (names : List GeneralName) : Option Tlv :=
  if semantics parsed names = ⟨none, none⟩ then none else some (semantics parsed names).tlv

/-- Whether there is a limit for transactions. -/
def HasLimit (qc : QcSettings) : Prop :=
  qc.useEtsiValueLimit = true ∧ 0 < qc.etsiValueLimit ∧ Text.trimmed qc.etsiValueLimitCurrency ≠ ""

instance : Decidable (HasLimit qc) :=
  inferInstanceAs (Decidable (_ ∧ _ ∧ _))

/-- The limit of a profile as an amount of money. -/
def limit (qc : QcSettings) : MonetaryValue :=
  ⟨Text.trimmed qc.etsiValueLimitCurrency, qc.etsiValueLimit, qc.etsiValueLimitExponent⟩

/-- The form of the limit of a profile, if it has one. -/
def limitInfo (qc : QcSettings) : Option Tlv :=
  if HasLimit qc then some (limit qc).tlv else none

/-- The identifier of the statement with a text, and what it says. -/
def textInfo (qc : QcSettings) (parsed : ParsedProfile) : Option (Oid × Tlv) :=
  if Text.trimmed qc.customStringText = "" then none
  else parsed.qcCustomOid.map fun id => (id, .ofText Tag.utf8String (Text.trimmed qc.customStringText))

/-- The statements that settings ask for, in their order, with what is said in three of them. -/
def listed (qc : QcSettings) (semantics limit : Option Tlv) (text : Option (Oid × Tlv)) : List QcStatement :=
  ⟨if qc.usePkixQcSyntaxV2 then Oid.qcSyntaxV2 else Oid.qcSyntaxV1, semantics⟩ ::
    (if qc.useEtsiQcCompliance then [⟨Oid.etsiQcCompliance, none⟩] else []) ++
    (limit.map fun t => ⟨Oid.etsiLimitValue, some t⟩).toList ++
    (if qc.useEtsiSscd then [⟨Oid.etsiQcSscd, none⟩] else []) ++
    (text.map fun p => ⟨p.1, some p.2⟩).toList

/-- Nobody is written as the one who registers names exactly if nobody is named. -/
lemma eq_nil_iff_of_toGeneralNames (h : AltName.toGeneralNames encoding parsed.qcRaNames = .ok names) :
    names = [] ↔ parsed.qcRaNames = [] := by
  have hlength := (AltName.toGeneralNames_eq_ok_iff.1 h).length_eq
  rw [← List.length_eq_zero_iff, ← hlength, List.length_eq_zero_iff]

/-- The first statement fails for the names only, and has the version of the syntax that the profile asks for. -/
lemma syntaxStatement_eq : syntaxStatement qc parsed encoding = (do
    let names ← ParsedProfile.underHeading "QC RA name" (AltName.toGeneralNames encoding parsed.qcRaNames)
    return ⟨if qc.usePkixQcSyntaxV2 then Oid.qcSyntaxV2 else Oid.qcSyntaxV1, semanticsInfo parsed names⟩) := by
  unfold syntaxStatement
  by_cases hnone : parsed.qcRaNames = []
  · rw [hnone]
    rfl
  · rw [if_neg (mt List.isEmpty_iff.1 hnone)]
    cases hnames : AltName.toGeneralNames encoding parsed.qcRaNames with
    | error p => rfl
    | ok names =>
      have hsome : names ≠ [] := mt (eq_nil_iff_of_toGeneralNames hnames).1 hnone
      show Except.ok _ = Except.ok _
      rw [semanticsInfo, semantics, if_neg hsome]

/-- A currency that was checked can be written. -/
lemma isPrintable_of_checkCurrency (h : ParsedProfile.checkCurrency qc = .ok ()) (hlimit : HasLimit qc) :
    Text.isPrintable (Text.trimmed qc.etsiValueLimitCurrency) = true := by
  obtain ⟨huse, -, hcurrency⟩ := hlimit
  by_contra hbad
  rw [Bool.not_eq_true] at hbad
  have hrefused : (qc.useEtsiValueLimit && !(Text.trimmed qc.etsiValueLimitCurrency).isEmpty &&
      ((Text.trimmed qc.etsiValueLimitCurrency).utf8ByteSize != 3 ||
        !Text.isPrintable (Text.trimmed qc.etsiValueLimitCurrency))) = true := by
    simp [huse, hcurrency, hbad]
  simp only [ParsedProfile.checkCurrency, hrefused, if_true] at h
  cases h

/-- With a currency that was checked the limit never fails and is there if there is something to say. -/
lemma limitStatement_eq (h : ParsedProfile.checkCurrency qc = .ok ()) :
    limitStatement qc = .ok ((limitInfo qc).map fun t => ⟨Oid.etsiLimitValue, some t⟩).toList := by
  have hcondition : (qc.useEtsiValueLimit && 0 < qc.etsiValueLimit &&
      !(Text.trimmed qc.etsiValueLimitCurrency).isEmpty) = true ↔ HasLimit qc := by
    simp [HasLimit, and_assoc]
  simp only [limitStatement, hcondition, limitInfo]
  by_cases hlimit : HasLimit qc
  · rw [if_pos hlimit, if_pos hlimit, if_pos (isPrintable_of_checkCurrency h hlimit)]
    rfl
  · rw [if_neg hlimit, if_neg hlimit]
    rfl

/-- The last statement is there if there is a text with an identifier. -/
lemma textStatement_eq :
    textStatement qc parsed = ((textInfo qc parsed).map fun p => ⟨p.1, some p.2⟩).toList := by
  by_cases hblank : Text.trimmed qc.customStringText = ""
  · cases hid : parsed.qcCustomOid <;> simp [textStatement, textInfo, hblank, hid]
  · cases hid : parsed.qcCustomOid <;> simp [textStatement, textInfo, hblank, hid]

/-- Where the currency was checked, the statements are those that the settings ask for; they are refused only with
one of the names of those who register names. -/
lemma statements_eq (h : ParsedProfile.checkCurrency qc = .ok ()) :
    statements qc parsed encoding = (do
      let names ← ParsedProfile.underHeading "QC RA name" (AltName.toGeneralNames encoding parsed.qcRaNames)
      return listed qc (semanticsInfo parsed names) (limitInfo qc) (textInfo qc parsed)) := by
  rw [statements, syntaxStatement_eq, limitStatement_eq h, textStatement_eq]
  cases ParsedProfile.underHeading "QC RA name" (AltName.toGeneralNames encoding parsed.qcRaNames) <;> rfl

/-! ### What is said is what the settings say -/

/-- Three statements say more than what they are: that on the syntax, if there are semantics of names or somebody
who registers them, that on the limit of transactions and that with a text. What they say is read again. -/
structure Informs (qc : QcSettings) (parsed : ParsedProfile) (names : List GeneralName) (semantics limit : Option Tlv)
    (text : Option (Oid × Tlv)) : Prop where
  semantics_none : semantics = none ↔ Text.trimmed qc.semanticsId = "" ∧ names = []
  semantics_read : ∀ t ∈ semantics, ∀ shortest s, SemanticsInformation.ofTlv? t shortest = some s ↔
    s = ⟨parsed.qcSemanticsId, if names = [] then none else some names⟩ ∧
      (∀ o ∈ parsed.qcSemanticsId, shortest ≤ o.octets.length) ∧
      ∀ g ∈ names, ∀ o ∈ g.identifiers, shortest ≤ o.octets.length
  limit_some : limit.isSome = true ↔
    qc.useEtsiValueLimit = true ∧ 0 < qc.etsiValueLimit ∧ Text.trimmed qc.etsiValueLimitCurrency ≠ ""
  limit_read : ∀ t ∈ limit, MonetaryValue.ofTlv? t =
    some ⟨Text.trimmed qc.etsiValueLimitCurrency, qc.etsiValueLimit, qc.etsiValueLimitExponent⟩
  text_some : text.isSome = true ↔ qc.useCustomString = true ∧ Text.trimmed qc.customStringOid ≠ "" ∧
    Text.trimmed qc.customStringText ≠ ""
  text_read : ∀ p ∈ text, Oid.parse (Text.trimmed qc.customStringOid) = .ok p.1 ∧
    (p.2.content? Tag.utf8String).bind Octets.toString? = some (Text.trimmed qc.customStringText)

/-- What is said in a statement fits where the statements do. -/
lemma fits_of_mem {s : QcStatement} {t : Tlv} (hf : (listTlv ss).Fits) (hs : s ∈ ss) (ht : t ∈ s.info) : t.Fits :=
  (hf.of_mem (List.mem_map_of_mem hs)).of_mem (List.mem_cons_of_mem _ (Option.mem_toList.2 ht))

/-- A limit stands in the list of statements. -/
lemma mem_listed_limit {semantics limit : Option Tlv} {text : Option (Oid × Tlv)} {t : Tlv} (ht : t ∈ limit) :
    ⟨Oid.etsiLimitValue, some t⟩ ∈ listed qc semantics limit text := by
  rw [Option.mem_def.1 ht]
  simp [listed]

/-- A statement says nothing beyond its identifier, or it is one of the three that do. -/
lemma info_of_mem_listed {semantics limit : Option Tlv} {text : Option (Oid × Tlv)} {s : QcStatement}
    (hs : s ∈ listed qc semantics limit text) :
    s.info = none ∨ s.info = semantics ∨ s.info = limit ∨ s.info = text.map Prod.snd := by
  simp only [listed, List.mem_append, List.mem_cons, List.mem_ite_nil_right, List.not_mem_nil, or_false,
    Option.mem_toList, Option.map_eq_some_iff] at hs
  obtain (((rfl | ⟨-, rfl⟩) | ⟨t, rfl, rfl⟩) | ⟨-, rfl⟩) | ⟨p, rfl, rfl⟩ := hs
  · exact .inr (.inl rfl)
  · exact .inl rfl
  · exact .inr (.inr (.inl rfl))
  · exact .inl rfl
  · exact .inr (.inr (.inr rfl))

/-- Information about semantics is that of the profile. -/
lemma eq_of_mem_semanticsInfo {t : Tlv} (ht : t ∈ semanticsInfo parsed names) : t = (semantics parsed names).tlv :=
  (Option.some.inj (Option.ite_none_left_eq_some.1 ht).2).symm

/-- A limit is that of the profile. -/
lemma eq_of_mem_limitInfo {t : Tlv} (ht : t ∈ limitInfo qc) : t = (limit qc).tlv :=
  (Option.some.inj (Option.ite_none_right_eq_some.1 ht).2).symm

/-- There is a text exactly if it is not blank and has an identifier. -/
lemma mem_textInfo_iff {id : Oid} {t : Tlv} : (id, t) ∈ textInfo qc parsed ↔
    Text.trimmed qc.customStringText ≠ "" ∧ parsed.qcCustomOid = some id ∧
      t = .ofText Tag.utf8String (Text.trimmed qc.customStringText) := by
  rw [Option.mem_def, textInfo, Option.ite_none_left_eq_some, Option.map_eq_some_iff]
  refine and_congr_right fun _ => ⟨?_, fun ⟨hid, ht⟩ => ⟨id, hid, congrArg (Prod.mk id) ht.symm⟩⟩
  rintro ⟨_, hid, ⟨⟩⟩
  exact ⟨hid, rfl⟩

/-- The names in the information about semantics are the given ones. -/
lemma forall_mem_authorities {Q : GeneralName → Prop} :
    (∀ gs ∈ (semantics parsed names).authorities, ∀ g ∈ gs, Q g) ↔ ∀ g ∈ names, Q g := by
  rw [semantics]
  by_cases hnil : names = [] <;> simp [hnil]

/-- What is said has a tag that is known. -/
lemma known_of_mem_listed {s : QcStatement} {t : Tlv}
    (hs : s ∈ listed qc (semanticsInfo parsed names) (limitInfo qc) (textInfo qc parsed)) (ht : t ∈ s.info) :
    t.Known := by
  obtain hinfo | hinfo | hinfo | hinfo := info_of_mem_listed hs <;> rw [hinfo] at ht
  · cases ht
  · rw [eq_of_mem_semanticsInfo ht]
    exact SemanticsInformation.known_tlv _
  · rw [eq_of_mem_limitInfo ht]
    exact Tlv.known_sequence _
  · obtain ⟨⟨id, t⟩, hp, rfl⟩ := Option.map_eq_some_iff.1 ht
    rw [(mem_textInfo_iff.1 hp).2.2]
    rfl

variable {p : Profile}

/-- There is an identifier for a text exactly if a text is asked for and its identifier is not blank. -/
lemma customOid_of_isParsed (hparsed : p.IsParsed parsed) :
    (parsed.qcCustomOid.isSome = true ↔ p.qcStatements.useCustomString = true ∧
      Text.trimmed p.qcStatements.customStringOid ≠ "") ∧
    ∀ id ∈ parsed.qcCustomOid, Oid.parse (Text.trimmed p.qcStatements.customStringOid) = .ok id := by
  have hcustom := hparsed.customOid
  split at hcustom
  · rename_i huse
    obtain ⟨hnone, hread⟩ := ParsedProfile.optionalOid_eq_ok hcustom
    rw [← Option.ne_none_iff_isSome, ne_eq, hnone]
    exact ⟨(and_iff_right huse).symm, hread⟩
  · rename_i huse
    cases hid : parsed.qcCustomOid with
    | none => exact ⟨iff_of_false Bool.false_ne_true fun h => huse h.1, nofun⟩
    | some id => exact absurd (hcustom.trans (congrArg Except.ok hid)) nofun

/-- What the statements of a profile say is what its settings say. -/
lemma informs (hparsed : p.IsParsed parsed) (hnames : AltName.toGeneralNames encoding parsed.qcRaNames = .ok names)
    (hf : (listTlv (listed p.qcStatements (semanticsInfo parsed names) (limitInfo p.qcStatements)
      (textInfo p.qcStatements parsed))).Fits) :
    Informs p.qcStatements parsed names (semanticsInfo parsed names) (limitInfo p.qcStatements)
      (textInfo p.qcStatements parsed) where
  semantics_none := by
    rw [← (ParsedProfile.optionalOid_eq_ok hparsed.semanticsId).1, semanticsInfo, semantics]
    by_cases hnil : names = [] <;> simp [hnil]
  semantics_read := by
    intro t ht shortest s
    have hfits := fits_of_mem hf List.mem_cons_self ht
    have hascii : ∀ g ∈ names, g.IsAscii := by
      intro g hg
      obtain ⟨name, -, hstands⟩ := exists_left_of_forall₂ (AltName.toGeneralNames_eq_ok_iff.1 hnames) hg
      exact hstands.isAscii
    rw [eq_of_mem_semanticsInfo ht] at hfits ⊢
    rw [SemanticsInformation.ofTlv?_tlv_iff hfits (forall_mem_authorities.2 hascii), forall_mem_authorities]
    rfl
  limit_some := by
    rw [limitInfo, ← HasLimit]
    split <;> simp [*]
  limit_read := by
    intro t ht
    have hfits := fits_of_mem hf (mem_listed_limit ht) rfl
    rw [eq_of_mem_limitInfo ht] at hfits ⊢
    exact MonetaryValue.ofTlv?_tlv hfits
  text_some := by
    obtain ⟨hsome, -⟩ := customOid_of_isParsed hparsed
    rw [← and_assoc, ← hsome, textInfo]
    split <;> simp [*]
  text_read := by
    rintro ⟨id, t⟩ hp
    obtain ⟨-, hid, rfl⟩ := mem_textInfo_iff.1 hp
    refine ⟨(customOid_of_isParsed hparsed).2 id hid, ?_⟩
    rw [Tlv.content?, Tlv.ofText, if_pos rfl, Option.bind_some, Octets.toString?_ofString]

end QcStatement

/-- The statements in an extension. The standard has no bound for the length of an identifier. -/
def Extension.qcStatements? (e : Extension) (shortest : Nat := 0) : Option (List QcStatement) := do
  QcStatement.listOfTlv? (← Tlv.decode? e.value) shortest

namespace ExtensionContext

variable {c : ExtensionContext}

/-- The statements are one of the sources. -/
lemma qcStatements_mem_sources (c : ExtensionContext) : c.qcStatements ∈ c.sources := by
  simp [sources]

/-- The extension with the statements that the settings of a profile ask for. -/
def qcExtension (c : ExtensionContext) (names : List GeneralName) : Extension :=
  .ofElement Oid.qcStatements c.profile.qcStatementsCritical
    (QcStatement.listTlv (QcStatement.listed c.profile.qcStatements
      (QcStatement.semanticsInfo c.resolved.parsed names) (QcStatement.limitInfo c.profile.qcStatements)
      (QcStatement.textInfo c.profile.qcStatements c.resolved.parsed)))

/-- With a profile that parses, the statements fail for the names of those who register names only. -/
lemma qcStatements_eq (hparse : c.profile.parse = .ok c.resolved.parsed) (huse : c.profile.useQcStatements = true) :
    c.qcStatements = (do
      let names ← ParsedProfile.underHeading "QC RA name"
        (AltName.toGeneralNames c.ca.dnEncoding c.resolved.parsed.qcRaNames)
      return some (c.qcExtension names)) := by
  rw [qcStatements, huse, whenever, if_pos rfl,
    QcStatement.statements_eq (Profile.isParsed_of_parse hparse).currency]
  cases ParsedProfile.underHeading "QC RA name"
    (AltName.toGeneralNames c.ca.dnEncoding c.resolved.parsed.qcRaNames) <;> rfl

/-- The statements of qualified certificates. They are refused exactly if one of those who register names cannot be
written, with the reason for the first one. Otherwise the extension is read as the statement on the syntax and, in a
fixed order, each of the others that the settings ask for; three of them say more than what they are, and that is read
as what the settings say. -/
theorem qc_statements (hparse : c.profile.parse = .ok c.resolved.parsed) (huse : c.profile.useQcStatements = true) :
    let qc := c.profile.qcStatements
    let parsed := c.resolved.parsed
    AltName.parse qc.raName = .ok parsed.qcRaNames ∧
    (∀ oid ∈ parsed.qcSemanticsId, Oid.parse (Text.trimmed qc.semanticsId) = .ok oid) ∧
    (∀ err, c.qcStatements = .error err ↔ ∃ before name after problem,
      parsed.qcRaNames = before ++ name :: after ∧
      (∀ n ∈ before, ∃ g, AltName.StandsFor c.ca.dnEncoding n g) ∧
      name.toGeneralName c.ca.dnEncoding = .error problem ∧
      err = .invalidProfile ("QC RA name: " ++ problem.message)) ∧
    ∀ names, List.Forall₂ (AltName.StandsFor c.ca.dnEncoding) parsed.qcRaNames names →
      ∃ e, c.qcStatements = .ok (some e) ∧
        (∀ es, c.resolve = .ok es → es.filter (fun e => e.oid = Oid.qcStatements) = [e]) ∧
        e.critical = c.profile.qcStatementsCritical ∧
        (e.value.length ≤ maxLength → ∃ semantics limit text,
          QcStatement.Informs qc parsed names semantics limit text ∧
          ∀ shortest ss, e.qcStatements? shortest = some ss ↔
            ss = QcStatement.listed qc semantics limit text ∧
              ∀ s ∈ QcStatement.listed qc semantics limit text, shortest ≤ s.id.octets.length) := by
  intro qc parsed
  have hparsed := Profile.isParsed_of_parse hparse
  refine ⟨hparsed.raNames, (ParsedProfile.optionalOid_eq_ok hparsed.semanticsId).2, fun err => ?_,
    fun names hnames => ?_⟩
  · rw [qcStatements_eq hparse huse, bind_pure_eq_error_iff, ParsedProfile.underHeading_eq_error_iff]
    simp only [AltName.toGeneralNames, mapM_eq_error_iff, AltName.toGeneralName_eq_ok_iff]
    constructor
    · rintro ⟨problem, ⟨before, name, after, hsplit, hbefore, hname⟩, rfl⟩
      exact ⟨before, name, after, problem, hsplit, hbefore, hname, rfl⟩
    · rintro ⟨before, name, after, problem, hsplit, hbefore, hname, rfl⟩
      exact ⟨problem, ⟨before, name, after, hsplit, hbefore, hname⟩, rfl⟩
  · have hwritten := AltName.toGeneralNames_eq_ok_iff.2 hnames
    have he : c.qcStatements = .ok (some (c.qcExtension names)) := by
      rw [qcStatements_eq hparse huse, hwritten]
      rfl
    refine ⟨c.qcExtension names, he, fun es hes => ?_, rfl, fun hlength => ?_⟩
    -- No other source has this identifier, so it is the only extension of its kind.
    · have hsource := c.qcStatements_mem_sources
      rw [he] at hsource
      exact filter_eq_singleton_of_resolve hes hsource
    · have hfits := Tlv.fits_of_length_encode hlength
      refine ⟨_, _, _, QcStatement.informs hparsed hwritten hfits, fun shortest ss => ?_⟩
      have hdecode : Tlv.decode? (c.qcExtension names).value = some (QcStatement.listTlv _) :=
        Tlv.decode?_encode ⟨Tlv.known_sequence _, hfits⟩
      rw [Extension.qcStatements?, hdecode, Option.bind_eq_bind, Option.bind_some]
      exact QcStatement.listOfTlv?_listTlv_iff hfits fun s hs t ht => QcStatement.known_of_mem_listed hs ht

end ExtensionContext

/-- A context whose profile asks for all statements. -/
def Sample.qcContext : ExtensionContext where
  request := request
  altNames := []
  resolved := {
    profile := {
      extendedKeyUsage := []
      useQcStatements := true
      qcStatements := {
        usePkixQcSyntaxV2 := true
        semanticsId := " 2.5.4.3"
        raName := "dnsname=a, registeredid=1.2.3"
        useEtsiQcCompliance := true
        useEtsiValueLimit := true
        etsiValueLimit := 5000
        etsiValueLimitExponent := -2
        etsiValueLimitCurrency := " EUR"
        useEtsiSscd := true
        useCustomString := true
        customStringOid := "1.2.3"
        customStringText := "å " } }
    parsed := {
      qcSemanticsId := some ⟨[85, 4, 3], rfl⟩
      qcRaNames := [⟨.dnsName, "a"⟩, ⟨.registeredId, "1.2.3"⟩]
      qcCustomOid := some ⟨[42, 3], Eq.refl true⟩ }
    plugins := [] }
  ca := authority
  signerKey := request.publicKey

/-- All five statements are there, with the semantics of names, a limit of 50 euros and a text. -/
theorem ExtensionContext.sample_qc_statements :
    Sample.qcContext.profile.parse = .ok Sample.qcContext.resolved.parsed ∧
    ∃ e semantics limit text, Sample.qcContext.qcStatements = .ok (some e) ∧
      e.qcStatements? = some [⟨Oid.qcSyntaxV2, some semantics⟩, ⟨Oid.etsiQcCompliance, none⟩,
        ⟨Oid.etsiLimitValue, some limit⟩, ⟨Oid.etsiQcSscd, none⟩, ⟨⟨[42, 3], rfl⟩, some text⟩] ∧
      SemanticsInformation.ofTlv? semantics 2 =
        some ⟨some ⟨[85, 4, 3], rfl⟩, some [.dnsName "a", .registeredId ⟨[42, 3], rfl⟩]⟩ ∧
      MonetaryValue.ofTlv? limit = some ⟨"EUR", 5000, -2⟩ := by
  have hparse : Sample.qcContext.profile.parse = .ok Sample.qcContext.resolved.parsed := by
    decide +kernel
  have hnames : List.Forall₂ (AltName.StandsFor Sample.qcContext.ca.dnEncoding)
      Sample.qcContext.resolved.parsed.qcRaNames [.dnsName "a", .registeredId ⟨[42, 3], rfl⟩] :=
    .cons (.dnsName (by decide)) (.cons (.registeredId (by decide +kernel)) .nil)
  obtain ⟨-, -, -, hread⟩ := qc_statements hparse rfl
  obtain ⟨e, he, -, -, hinforms⟩ := hread _ hnames
  obtain ⟨short, hshort, hlength⟩ := @exists_of_givesShort Sample.qcContext.qcStatements (by decide +kernel)
  obtain rfl : e = short := Option.some.inj (Except.ok.inj (he.symm.trans hshort))
  obtain ⟨semantics, limit, text, hsaid, hlist⟩ := hinforms hlength
  obtain ⟨semantics, rfl⟩ : ∃ t, semantics = some t :=
    Option.ne_none_iff_exists'.1 fun hnone => absurd (hsaid.semantics_none.1 hnone).2 (List.cons_ne_nil _ _)
  obtain ⟨limit, rfl⟩ := Option.isSome_iff_exists.1 (hsaid.limit_some.2 (by decide +kernel))
  obtain ⟨⟨id, text⟩, rfl⟩ := Option.isSome_iff_exists.1 (hsaid.text_some.2 (by decide +kernel))
  have hid : Oid.parse (Text.trimmed Sample.qcContext.profile.qcStatements.customStringOid) = .ok ⟨[42, 3], rfl⟩ := by
    decide +kernel
  rw [(hsaid.text_read _ rfl).1, Except.ok.injEq] at hid
  subst hid
  refine ⟨hparse, e, semantics, limit, text, he, ?_, ?_, ?_⟩
  · exact (hlist 0 _).2 ⟨rfl, fun _ _ => Nat.zero_le _⟩
  · exact (hsaid.semantics_read semantics rfl 2 _).2 ⟨by decide, by decide, by decide⟩
  · rw [hsaid.limit_read limit rfl]
    decide +kernel

end CertAuthority
