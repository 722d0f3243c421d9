import CertAuthority.Proofs.Extension.Policies

/-!
# The texts of notices

The standard wants a notice to have between 1 and 200 characters in its string type, and a BMPString to have two
octets for each of them (`PolicyQualifier.IsDisplayText`). A profile has at most 200 characters for a notice, which
are kept in a UTF8String. In a BMPString a character beyond the first 65536 takes two units, neither of which is a
character: then a notice has up to 400 units, and it is no text of that type
(`ExtensionContext.notice_of_policies`).
-/

namespace CertAuthority

open Der

/-! ### What may stand for a notice -/

namespace PolicyQualifier

/-- How many characters an element has in its string type. In a BMPString each unit of two octets is one, but for the
halves of pairs. -/
def characters? (t : Tlv) : Option Nat :=
  if t.tag = Tag.utf8String then (Octets.toString? t.content).map String.length
  else if t.tag = Tag.bmpString then do
    let units ← Text.unitsOf? t.content
    if units.any Text.isSurrogate then none else some units.length
  else none

/-- An element that may stand for the text of a notice. -/
def IsDisplayText (t : Tlv) : Prop :=
  ∃ n ∈ characters? t, 1 ≤ n ∧ n ≤ 200

/-- A BMPString has the units of the text. -/
lemma unitsOf?_noticeTlv (text : String) :
    Text.unitsOf? (noticeTlv false text).content = some (text.toList.flatMap Text.utf16Units) := by
  rw [noticeTlv, if_neg Bool.false_ne_true, Text.unitsOf?_utf16Encode]

/-- A notice has the characters of its text in its string type, if all of them have a unit there. -/
lemma characters?_noticeTlv (utf8 : Bool) (text : String) : characters? (noticeTlv utf8 text) =
    if utf8 = true ∨ text.toList.countP Text.isBeyond = 0 then some text.length else none := by
  cases utf8 with
  | true =>
    rw [noticeTlv, if_pos rfl, Tlv.ofText, characters?, if_pos rfl, Octets.toString?_ofString, Option.map_some,
      if_pos (.inl rfl)]
  | false =>
    have htag : Tag.bmpString ≠ Tag.utf8String := by decide
    have hany : text.toList.any Text.isBeyond = true ↔ ¬ text.toList.countP Text.isBeyond = 0 := by
      rw [List.any_eq_true, ← ne_eq, ← Nat.pos_iff_ne_zero, List.countP_pos_iff]
    rw [noticeTlv, if_neg Bool.false_ne_true, characters?, if_neg htag, if_pos rfl, Text.unitsOf?_utf16Encode,
      Option.bind_eq_bind, Option.bind_some, Text.any_isSurrogate_flatMap, Text.length_flatMap_utf16Units]
    by_cases hnone : text.toList.countP Text.isBeyond = 0
    · rw [if_neg (mt hany.1 (not_not_intro hnone)), if_pos (.inr hnone), hnone, Nat.add_zero, String.length_toList]
    · rw [if_pos (hany.2 hnone), if_neg (by simpa using hnone)]

/-- A text that is not empty has a character. -/
lemma one_le_length {text : String} (h : text ≠ "") : 1 ≤ text.length := by
  rw [Nat.one_le_iff_ne_zero, ne_eq, String.length_eq_zero_iff]
  exact h

/-- A text of 1 to 200 characters may stand for a notice, unless a character of a BMPString takes two units. -/
lemma isDisplayText_noticeTlv (utf8 : Bool) {text : String} (hne : text ≠ "") (hlength : text.length ≤ 200) :
    IsDisplayText (noticeTlv utf8 text) ↔ utf8 = true ∨ ∀ c ∈ text.toList, c.toNat < 0x10000 := by
  have hbeyond : text.toList.countP Text.isBeyond = 0 ↔ ∀ c ∈ text.toList, c.toNat < 0x10000 := by
    simp [List.countP_eq_zero, Text.isBeyond]
  rw [IsDisplayText, characters?_noticeTlv, ← hbeyond]
  constructor
  · rintro ⟨n, hn, -⟩
    exact (Option.ite_none_right_eq_some.1 hn).1
  · intro h
    exact ⟨text.length, if_pos h, one_le_length hne, hlength⟩

/-! ### The texts in an extension -/

/-- The elements that stand for a notice in a qualifier. -/
def noticeTexts? (t : Tlv) : Option (List Tlv) := do
  match ← t.inside? Tag.sequence with
  | [id, value] => if (← id.toOid?) = Oid.userNoticeQualifier then value.inside? Tag.sequence else some []
  | _ => none

/-- The text of a notice. -/
def texts : PolicyQualifier → List Tlv
  | userNotice utf8 text => [noticeTlv utf8 text]
  | practiceStatement _ => []

/-- The texts of notices in a qualifier are those that it has. -/
lemma noticeTexts?_tlv {q : PolicyQualifier} (hf : q.tlv.Fits) : noticeTexts? q.tlv = some q.texts := by
  rw [noticeTexts?, inside?_tlv hf]
  simp only [Option.bind_eq_bind, Option.bind_some, toOid?_identifier]
  cases q with
  | userNotice utf8 text => simp [identifier, value, inside?_notice hf, texts]
  | practiceStatement uri =>
    have hne : Oid.cpsQualifier ≠ Oid.userNoticeQualifier := by decide
    simp [identifier, hne, texts]

end PolicyQualifier

namespace PolicyInformation

/-- The elements that stand for notices in an entry of a list of policies. -/
def noticeTexts? (t : Tlv) : Option (List Tlv) := do
  match ← t.inside? Tag.sequence with
  | [_] => some []
  | [_, qualifiers] =>
    return (← (← qualifiers.inside? Tag.sequence).mapM PolicyQualifier.noticeTexts?).flatten
  | _ => none

/-- The texts of notices in a policy are those of its qualifiers. -/
lemma noticeTexts?_tlv {p : PolicyInformation} (hf : p.tlv.Fits) :
    noticeTexts? p.tlv = some (p.qualifiers.flatMap PolicyQualifier.texts) := by
  obtain ⟨policy, qualifiers⟩ := p
  cases qualifiers with
  | nil =>
    have hinside : (tlv ⟨policy, []⟩).inside? Tag.sequence = some [.ofOid policy] :=
      Tlv.inside?_around hf (List.forall_mem_singleton.2 (Tlv.known_ofOid policy))
    rw [noticeTexts?, hinside]
    rfl
  | cons q qualifiers =>
    have hfield : (PolicyContents.qualifiersTlv (q :: qualifiers)).Fits :=
      hf.of_mem (List.mem_cons_of_mem _ (List.mem_singleton_self _))
    have hinside : (tlv ⟨policy, q :: qualifiers⟩).inside? Tag.sequence =
        some [.ofOid policy, PolicyContents.qualifiersTlv (q :: qualifiers)] :=
      Tlv.inside?_identified hf (Tlv.known_sequence _)
    have htexts : ((q :: qualifiers).map PolicyQualifier.tlv).mapM PolicyQualifier.noticeTexts? =
        some ((q :: qualifiers).map PolicyQualifier.texts) :=
      mapM_map_eq_some fun q hq => PolicyQualifier.noticeTexts?_tlv (hfield.of_mem (List.mem_map_of_mem hq))
    rw [noticeTexts?, hinside]
    simp only [Option.bind_eq_bind, Option.bind_some, PolicyContents.inside?_qualifiersTlv hfield, htexts,
      Option.pure_def, List.flatMap_def]

end PolicyInformation

/-- The elements that stand for notices in an extension with policies. -/
def Extension.noticeTexts? (e : Extension) : Option (List Tlv) := do
  return (← (← (← Tlv.decode? e.value).inside? Tag.sequence).mapM PolicyInformation.noticeTexts?).flatten

/-- The texts of notices in an extension are those of its policies. -/
lemma PolicyInformation.noticeTexts?_listTlv {oid : Oid} {critical : Bool} {ps : List PolicyInformation}
    (hf : (listTlv ps).Fits) : (Extension.ofElement oid critical (listTlv ps)).noticeTexts? =
      some (ps.flatMap fun p => p.qualifiers.flatMap PolicyQualifier.texts) := by
  have hdecode : Tlv.decode? (listTlv ps).encode = some (listTlv ps) := Tlv.decode?_encode ⟨rfl, hf⟩
  have hinside : (listTlv ps).inside? Tag.sequence = some (ps.map tlv) :=
    Tlv.inside?_around hf (List.forall_mem_map.2 fun p _ => Tlv.known_sequence _)
  have htexts : (ps.map tlv).mapM noticeTexts? =
      some (ps.map fun p => p.qualifiers.flatMap PolicyQualifier.texts) :=
    mapM_map_eq_some fun p hp => noticeTexts?_tlv (hf.of_mem (List.mem_map_of_mem hp))
  simp only [Extension.noticeTexts?, Extension.ofElement, hdecode, hinside, htexts, Option.bind_eq_bind,
    Option.bind_some, Option.pure_def, List.flatMap_def]

/-- The notices of a list of policies are those of the first one. -/
lemma PolicyInformation.flatMap_ofIds {α : Type} {ids : List Oid} (hids : ids ≠ [])
    (qualifiers : List PolicyQualifier) (f : PolicyQualifier → List α) :
    (ofIds ids qualifiers).flatMap (fun p => p.qualifiers.flatMap f) = qualifiers.flatMap f := by
  cases ids with
  | nil => exact absurd rfl hids
  | cons id ids =>
    rw [ofIds, List.flatMap_cons, List.flatMap_map]
    simp

/-- Trimming makes no text longer. -/
lemma Text.length_trimmed_le (s : String) : (trimmed s).length ≤ s.length := by
  have hinner := (List.dropWhile_sublist isBlank (l := s.toList)).length_le
  have houter := (List.dropWhile_sublist isBlank (l := (s.toList.dropWhile isBlank).reverse)).length_le
  rw [List.length_reverse] at houter
  rw [← String.length_toList, ← String.length_toList, trimmed, String.toList_ofList, trim, List.length_reverse]
  exact Nat.le_trans houter hinner

/-! ### The notice of a profile -/

namespace ExtensionContext

variable {c : ExtensionContext} {e : Extension}

/-- Where there are policies in a certificate they are those of the profile. -/
lemma eq_of_certificatePolicies (he : c.certificatePolicies = .ok (some e)) :
    c.resolved.parsed.policyIds ≠ [] ∧ ∃ qualifiers, c.policyQualifiers = .ok qualifiers ∧
      e = .ofElement Oid.certificatePolicies c.profile.certificatePoliciesCritical
        (PolicyInformation.listTlv (PolicyInformation.ofIds c.resolved.parsed.policyIds qualifiers)) := by
  obtain ⟨hwhen, _, hvalue, hsome⟩ | ⟨-, h⟩ := whenever_eq_ok_iff.1 he
  · obtain ⟨qualifiers, hqualifiers, hvalue⟩ := bind_eq_ok_iff.1 hvalue
    cases hvalue
    rw [Bool.and_eq_true, Bool.not_eq_true', List.isEmpty_eq_false_iff] at hwhen
    exact ⟨hwhen.2, qualifiers, hqualifiers, (Option.some.inj hsome).symm⟩
  · exact absurd h nofun

/-- The policies of a profile have its notice, if it is not blank, and no other. -/
lemma noticeTexts?_of_certificatePolicies (he : c.certificatePolicies = .ok (some e))
    (hlength : e.value.length ≤ maxLength) :
    e.noticeTexts? = some (if Text.trimmed c.profile.policyUserNoticeText = "" then []
      else [PolicyQualifier.noticeTlv c.ca.useUtf8PolicyText (Text.trimmed c.profile.policyUserNoticeText)]) := by
  obtain ⟨hids, qualifiers, hqualifiers, rfl⟩ := eq_of_certificatePolicies he
  rw [PolicyInformation.noticeTexts?_listTlv (Tlv.fits_of_length_encode hlength),
    PolicyInformation.flatMap_ofIds hids, ← (policyQualifiers_eq_ok_iff.1 hqualifiers).2]
  split <;> split <;> rfl

/-- The notice in the policies of a certificate is the text of the profile without outer blanks, if there is any;
these policies are the only ones of the certificate. As a UTF8String it has between 1 and 200 characters. As a
BMPString it has one more unit of two octets for each character beyond the first 65536, and so up to 400 of them; it
is a text of this type exactly if there is no such character. -/
theorem notice_of_policies (hparse : c.profile.parse = .ok c.resolved.parsed)
    (he : c.certificatePolicies = .ok (some e)) (hlength : e.value.length ≤ maxLength) :
    let notice := Text.trimmed c.profile.policyUserNoticeText
    (∀ es, c.resolve = .ok es → es.filter (fun x => x.oid = Oid.certificatePolicies) = [e]) ∧
    ∃ texts, e.noticeTexts? = some texts ∧
      texts = (if notice = "" then [] else [PolicyQualifier.noticeTlv c.ca.useUtf8PolicyText notice]) ∧
      ∀ t ∈ texts,
        (c.ca.useUtf8PolicyText = true → t.tag = Tag.utf8String ∧ PolicyQualifier.IsDisplayText t) ∧
        (c.ca.useUtf8PolicyText = false → t.tag = Tag.bmpString ∧
          ∃ units, Text.unitsOf? t.content = some units ∧
            units.length = notice.length + notice.toList.countP Text.isBeyond ∧
            1 ≤ units.length ∧ units.length ≤ 400 ∧
            (PolicyQualifier.IsDisplayText t ↔ ∀ ch ∈ notice.toList, ch.toNat < 0x10000)) := by
  intro notice
  have hbound : notice.length ≤ 200 :=
    Nat.le_trans (Text.length_trimmed_le _) (Profile.isParsed_of_parse hparse).notice
  have hoid : e.oid = Oid.certificatePolicies := gives_computed e he
  have honly {es : List Extension} (hes : c.resolve = .ok es) := filter_eq_singleton_of_resolve hes
    (he ▸ c.certificatePolicies_mem_sources)
  rw [hoid] at honly
  refine ⟨fun _ => honly, _, noticeTexts?_of_certificatePolicies he hlength, rfl, ?_⟩
  by_cases hne : notice = ""
  · rw [if_pos hne]
    exact nofun
  · rw [if_neg hne, List.forall_mem_singleton]
    have hdisplay (utf8 : Bool) := PolicyQualifier.isDisplayText_noticeTlv utf8 hne hbound
    refine ⟨fun hutf8 => ?_, fun hbmp => ?_⟩
    · rw [hutf8]
      exact ⟨rfl, (hdisplay true).2 (.inl rfl)⟩
    -- A character beyond the first 65536 takes two units, so there are at most twice as many units as characters.
    · have hpos := PolicyQualifier.one_le_length hne
      have hbeyond : notice.toList.countP Text.isBeyond ≤ notice.length := by
        rw [← String.length_toList]
        exact List.countP_le_length
      rw [hbmp]
      refine ⟨rfl, _, PolicyQualifier.unitsOf?_noticeTlv notice, ?_⟩
      rw [Text.length_flatMap_utf16Units, String.length_toList, hdisplay false]
      exact ⟨rfl, by omega, by omega, or_iff_right Bool.false_ne_true⟩

/-- The context has an extension with policies that is short enough to be read. -/
lemma exists_sample_policies :
    ∃ e, Sample.policyContext.certificatePolicies = .ok (some e) ∧ e.value.length ≤ maxLength :=
  exists_of_givesShort (by decide +kernel)

/-- The profile of the context parses, its notice has two characters, and it is written in units of sixteen bits. -/
lemma sample_policyContext : Sample.policyContext.profile.parse = .ok Sample.policyContext.resolved.parsed ∧
    Text.trimmed Sample.policyContext.profile.policyUserNoticeText = "𝄞å" ∧
    Sample.policyContext.ca.useUtf8PolicyText = false := by
  decide +kernel

/-- A notice of two characters has three units. -/
theorem sample_notice : ∃ e t units, Sample.policyContext.certificatePolicies = .ok (some e) ∧
    e.noticeTexts? = some [t] ∧ Text.unitsOf? t.content = some units ∧ units.length = 3 := by
  obtain ⟨hparse, hnotice, hbmp⟩ := sample_policyContext
  obtain ⟨e, he, hlength⟩ := exists_sample_policies
  obtain ⟨-, _, htexts, rfl, hall⟩ := notice_of_policies hparse he hlength
  rw [hnotice, if_neg (by decide)] at htexts hall
  obtain ⟨-, units, hunits, hcount, -⟩ := (hall _ (List.mem_singleton_self _)).2 hbmp
  refine ⟨e, _, units, he, htexts, hunits, hcount.trans ?_⟩
  decide +kernel

/-- A profile with a notice of two characters is accepted, and what stands for it in the extension is no text of its
string type. -/
theorem exists_notice_not_displayText :
    ∃ (c : ExtensionContext) (e : Extension) (t : Tlv), c.profile.parse = .ok c.resolved.parsed ∧
      c.certificatePolicies = .ok (some e) ∧ e.noticeTexts? = some [t] ∧ ¬ PolicyQualifier.IsDisplayText t := by
  obtain ⟨hparse, hnotice, hbmp⟩ := sample_policyContext
  obtain ⟨e, he, hlength⟩ := exists_sample_policies
  have htexts := noticeTexts?_of_certificatePolicies he hlength
  rw [hnotice, if_neg (by decide), hbmp] at htexts
  refine ⟨Sample.policyContext, e, _, hparse, he, htexts, ?_⟩
  rw [PolicyQualifier.isDisplayText_noticeTlv false (by decide) (by decide), not_or]
  exact ⟨Bool.false_ne_true, fun h => absurd (h '𝄞' (by decide)) (by decide)⟩

end ExtensionContext

end CertAuthority
