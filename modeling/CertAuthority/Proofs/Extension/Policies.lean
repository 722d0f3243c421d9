import CertAuthority.Proofs.Certificate.Run
import CertAuthority.Proofs.Config.Loaded
import CertAuthority.Proofs.Extension.Resolve
import CertAuthority.Proofs.Text.Utf16

/-!
# Certificate policies

The policies of a profile are written in their order, and what is said about them stands with the first one. An
extension is read with a qualifier field that may be missing (`PolicyContents`), so that a field without qualifiers
is not taken for none. What is read of the extension are the identifiers, the notice in its string type and the place
of the practice statement (`ExtensionContext.certificate_policies`).
-/

namespace CertAuthority

open Der

/-! ### Qualifiers are read as they were written -/

/-- In a sequence of two stand an identifier and what is said with it. -/
lemma Der.Tlv.inside?_identified {oid : Oid} {t : Tlv} (hf : (sequence [ofOid oid, t]).Fits) (ht : t.Known) :
    (sequence [ofOid oid, t]).inside? Tag.sequence = some [ofOid oid, t] :=
  inside?_around hf (List.forall_mem_cons.2 ⟨known_ofOid oid, List.forall_mem_singleton.2 ht⟩)

namespace PolicyQualifier

/-- The text of a notice has a known tag in both encodings. -/
lemma known_noticeTlv (utf8 : Bool) (text : String) : (noticeTlv utf8 text).Known := by
  cases utf8 <;> rfl

/-- A notice is read with its string type and its text. -/
lemma noticeOfTlv?_noticeTlv (utf8 : Bool) (text : String) :
    noticeOfTlv? (noticeTlv utf8 text) = some (utf8, text) := by
  cases utf8 with
  | true =>
    rw [noticeTlv, if_pos rfl, Tlv.ofText, noticeOfTlv?, if_pos rfl, Octets.toString?_ofString, Option.map_some]
  | false =>
    have htag : Tag.bmpString ≠ Tag.utf8String := by decide
    rw [noticeTlv, if_neg Bool.false_ne_true, noticeOfTlv?, if_neg htag, if_pos rfl, Text.utf16Decode?_utf16Encode,
      Option.map_some]

/-- A qualifier has a known tag, that of a sequence. -/
@[simp] lemma known_tlv (q : PolicyQualifier) : q.tlv.Known := by
  cases q <;> rfl

/-- What kind of qualifier it is. -/
def identifier : PolicyQualifier → Oid
  | userNotice _ _ => Oid.userNoticeQualifier
  | practiceStatement _ => Oid.cpsQualifier

/-- What the qualifier says. -/
def value : PolicyQualifier → Tlv
  | userNotice utf8 text => .sequence [noticeTlv utf8 text]
  | practiceStatement uri => .ofText Tag.ia5String uri

/-- The identifiers of both kinds of qualifiers are long enough to be read. -/
lemma toOid?_identifier (q : PolicyQualifier) : (Tlv.ofOid q.identifier).toOid? = some q.identifier := by
  have huser : (Tlv.ofOid Oid.userNoticeQualifier).toOid? = some Oid.userNoticeQualifier :=
    Tlv.toOid?_ofOid_iff.2 ⟨rfl, by decide⟩
  have hplace : (Tlv.ofOid Oid.cpsQualifier).toOid? = some Oid.cpsQualifier :=
    Tlv.toOid?_ofOid_iff.2 ⟨rfl, by decide⟩
  cases q with
  | userNotice utf8 text => exact huser
  | practiceStatement uri => exact hplace

/-- A qualifier has its kind and what it says. -/
lemma inside?_tlv {q : PolicyQualifier} (hf : q.tlv.Fits) :
    q.tlv.inside? Tag.sequence = some [.ofOid q.identifier, q.value] := by
  cases q <;> exact Tlv.inside?_identified hf rfl

/-- In a notice stands its text and nothing else. -/
lemma inside?_notice {utf8 : Bool} {text : String} (hf : (userNotice utf8 text).tlv.Fits) :
    (Tlv.sequence [noticeTlv utf8 text]).inside? Tag.sequence = some [noticeTlv utf8 text] :=
  Tlv.inside?_around (hf.of_mem (List.mem_cons_of_mem _ (List.mem_singleton_self _)))
    (List.forall_mem_singleton.2 (known_noticeTlv utf8 text))

/-- A qualifier is read again if it is not too long. -/
lemma ofTlv?_tlv {q : PolicyQualifier} (hf : q.tlv.Fits) : ofTlv? q.tlv = some q := by
  rw [ofTlv?, inside?_tlv hf]
  simp only [Option.bind_eq_bind, Option.bind_some, toOid?_identifier]
  cases q with
  | userNotice utf8 text =>
    simp [identifier, value, inside?_notice hf, noticeOfTlv?_noticeTlv]
  | practiceStatement uri =>
    have hne : Oid.cpsQualifier ≠ Oid.userNoticeQualifier := by decide
    have huri : (Tlv.ofText Tag.ia5String uri).content? Tag.ia5String = some (Octets.ofString uri) := by
      rw [Tlv.content?, Tlv.ofText, if_pos rfl]
    simp [identifier, value, hne, huri]

end PolicyQualifier

/-! ### Policies with a field that may be missing -/

/-- What stands in an entry of a list of policies. -/
structure PolicyContents where
  policy : Oid
  /-- The qualifiers, if there is a field for them. -/
  qualifiers : Option (List PolicyQualifier)
deriving DecidableEq, Repr

namespace PolicyContents

/-- The element of a list of qualifiers. -/
def qualifiersTlv (qualifiers : List PolicyQualifier) : Tlv :=
  .sequence (qualifiers.map PolicyQualifier.tlv)

def tlv (c : PolicyContents) : Tlv :=
  .sequence (.ofOid c.policy :: (c.qualifiers.map qualifiersTlv).toList)

/-- Reads an entry. Identifiers with fewer octets than `shortest` are not read; the standard has no such bound. -/
def ofTlv? (t : Tlv) (shortest : Nat := 0) : Option PolicyContents := do
  match ← t.inside? Tag.sequence with
  | [policy] => return ⟨← policy.toOid? shortest, none⟩
  | [policy, qualifiers] =>
    return ⟨← policy.toOid? shortest, some (← (← qualifiers.inside? Tag.sequence).mapM PolicyQualifier.ofTlv?)⟩
  | _ => none

variable {c x : PolicyContents} {shortest : Nat}

/-- The qualifiers stand inside their sequence. -/
lemma inside?_qualifiersTlv {qualifiers : List PolicyQualifier} (hf : (qualifiersTlv qualifiers).Fits) :
    (qualifiersTlv qualifiers).inside? Tag.sequence = some (qualifiers.map PolicyQualifier.tlv) :=
  Tlv.inside?_around hf (by simp)

/-- Qualifiers in a row are read again if their sequence is not too long. -/
lemma mapM_ofTlv?_map {qualifiers : List PolicyQualifier} (hf : (qualifiersTlv qualifiers).Fits) :
    (qualifiers.map PolicyQualifier.tlv).mapM PolicyQualifier.ofTlv? = some qualifiers := by
  refine (mapM_map_eq_some_iff (P := fun _ => True) fun q hq other => ?_).2 ⟨rfl, fun _ _ => trivial⟩
  rw [PolicyQualifier.ofTlv?_tlv (hf.of_mem (List.mem_map_of_mem hq)), Option.some.injEq, and_true, eq_comm]

/-- An entry is read again exactly if its identifier is long enough. -/
lemma ofTlv?_tlv_iff (hf : c.tlv.Fits) :
    ofTlv? c.tlv shortest = some x ↔ x = c ∧ shortest ≤ c.policy.octets.length := by
  obtain ⟨policy, qualifiers⟩ := c
  cases qualifiers with
  | none =>
    have hinside : (tlv ⟨policy, none⟩).inside? Tag.sequence = some [.ofOid policy] :=
      Tlv.inside?_around hf (List.forall_mem_singleton.2 (Tlv.known_ofOid policy))
    rw [ofTlv?, hinside]
    simp only [Option.bind_eq_bind, Option.bind_some]
    exact bind_eq_some_iff_of_part (fun _ => Tlv.toOid?_ofOid_iff) rfl
  | some qualifiers =>
    have hinside : (tlv ⟨policy, some qualifiers⟩).inside? Tag.sequence =
        some [.ofOid policy, qualifiersTlv qualifiers] :=
      Tlv.inside?_identified hf (Tlv.known_sequence _)
    have hfield : (qualifiersTlv qualifiers).Fits :=
      hf.of_mem (List.mem_cons_of_mem _ (List.mem_singleton_self _))
    rw [ofTlv?, hinside]
    simp only [Option.bind_eq_bind, Option.bind_some, inside?_qualifiersTlv hfield, mapM_ofTlv?_map hfield]
    exact bind_eq_some_iff_of_part (fun _ => Tlv.toOid?_ofOid_iff) rfl

/-- The entries of a list of policies of which only the first one has qualifiers, if there are any. -/
def ofIds (ids : List Oid) (qualifiers : List PolicyQualifier) : List PolicyContents :=
  ids.mapIdx fun i id => ⟨id, if i = 0 ∧ qualifiers ≠ [] then some qualifiers else none⟩

end PolicyContents

/-- The policies in an extension. -/
def Extension.policies? (e : Extension) (shortest : Nat := 0) : Option (List PolicyContents) := do
  (← (← Tlv.decode? e.value).inside? Tag.sequence).mapM fun t => PolicyContents.ofTlv? t shortest

namespace PolicyInformation

/-- What stands in the entry of a policy. -/
def contents (p : PolicyInformation) : PolicyContents :=
  ⟨p.policy, if p.qualifiers = [] then none else some p.qualifiers⟩

variable {p : PolicyInformation} {ps : List PolicyInformation} {shortest : Nat}

/-- A policy is written as its contents. -/
lemma tlv_contents (p : PolicyInformation) : p.contents.tlv = p.tlv := by
  obtain ⟨policy, qualifiers⟩ := p
  cases qualifiers <;> rfl

/-- The policies of an extension are read again exactly if their identifiers are long enough. -/
lemma policies?_listTlv_iff {oid : Oid} {critical : Bool} {xs : List PolicyContents} (hf : (listTlv ps).Fits) :
    (Extension.ofElement oid critical (listTlv ps)).policies? shortest = some xs ↔
      xs = ps.map contents ∧ ∀ p ∈ ps, shortest ≤ p.policy.octets.length := by
  have hdecode : Tlv.decode? (listTlv ps).encode = some (listTlv ps) := Tlv.decode?_encode ⟨rfl, hf⟩
  have hcontents : (ps.map contents).map PolicyContents.tlv = ps.map tlv := by
    rw [List.map_map]
    exact List.map_congr_left fun p _ => tlv_contents p
  have hinside : (listTlv ps).inside? Tag.sequence = some ((ps.map contents).map PolicyContents.tlv) := by
    rw [hcontents]
    exact Tlv.inside?_around hf (List.forall_mem_map.2 fun p _ => Tlv.known_sequence _)
  simp only [Extension.policies?, Extension.ofElement, hdecode, hinside, Option.bind_eq_bind, Option.bind_some]
  rw [mapM_map_eq_some_iff (P := fun c => shortest ≤ c.policy.octets.length), List.forall_mem_map]
  · rfl
  · intro c hc x
    obtain ⟨p, hp, rfl⟩ := List.mem_map.1 hc
    refine PolicyContents.ofTlv?_tlv_iff ?_
    rw [tlv_contents]
    exact hf.of_mem (List.mem_map_of_mem hp)

/-- Only the first of the policies that are written has qualifiers. -/
lemma map_contents_ofIds (ids : List Oid) (qualifiers : List PolicyQualifier) :
    (ofIds ids qualifiers).map contents = PolicyContents.ofIds ids qualifiers := by
  cases ids with
  | nil => rfl
  | cons id ids =>
    have hfirst : contents ⟨id, qualifiers⟩ =
        ⟨id, if 0 = 0 ∧ qualifiers ≠ [] then some qualifiers else none⟩ := by
      by_cases hne : qualifiers = [] <;> simp [contents, hne]
    have hrest : ((ids.map fun other => ⟨other, []⟩).map contents) =
        ids.mapIdx fun i id => ⟨id, if i + 1 = 0 ∧ qualifiers ≠ [] then some qualifiers else none⟩ := by
      apply List.ext_getElem
      · simp
      · intro i _ _
        simp [contents]
    rw [ofIds, PolicyContents.ofIds, List.mapIdx_cons, List.map_cons, hfirst, hrest]

/-- The policies have the given identifiers. -/
lemma forall_mem_ofIds {ids : List Oid} {qualifiers : List PolicyQualifier} {P : Oid → Prop} :
    (∀ p ∈ ofIds ids qualifiers, P p.policy) ↔ ∀ id ∈ ids, P id := by
  cases ids <;> simp [ofIds]

end PolicyInformation

/-! ### The policies of a profile -/

namespace ExtensionContext

variable {c : ExtensionContext}

/-- The policies are one of the sources. -/
lemma certificatePolicies_mem_sources (c : ExtensionContext) : c.certificatePolicies ∈ c.sources := by
  simp [sources]

/-- The qualifiers can be written exactly if the place of the practice statement is ASCII. -/
lemma policyQualifiers_eq_ok_iff {qualifiers : List PolicyQualifier} : c.policyQualifiers = .ok qualifiers ↔
    Text.isAscii (Text.trimmed c.profile.policyCpsUrl) = true ∧
      (if Text.trimmed c.profile.policyUserNoticeText = "" then []
        else [.userNotice c.ca.useUtf8PolicyText (Text.trimmed c.profile.policyUserNoticeText)]) ++
      (if Text.trimmed c.profile.policyCpsUrl = "" then []
        else [.practiceStatement (Text.trimmed c.profile.policyCpsUrl)]) = qualifiers := by
  unfold policyQualifiers asciiPlace
  split
  · rename_i hascii
    simp only [ok_bind, pure_eq_ok_iff, String.isEmpty_iff, hascii, true_and]
  · rename_i hascii
    simp only [hascii]
    exact ⟨nofun, nofun⟩

/-- The policies in the extensions of a certificate. They are read as the identifiers of the profile in their order.
With the first one, and with no other, stand a notice and the place of the practice statement, each of them if the
profile has a text for it. The notice is a UTF8String or a BMPString, as the authority wants it, and has the text of
the profile without outer blanks, and so has the place. -/
theorem certificate_policies (hparse : c.profile.parse = .ok c.resolved.parsed)
    (huse : c.profile.useCertificatePolicies = true) (hids : c.resolved.parsed.policyIds ≠ []) :
    let notice := Text.trimmed c.profile.policyUserNoticeText
    let url := Text.trimmed c.profile.policyCpsUrl
    ∃ e, c.certificatePolicies = .ok (some e) ∧
      (∀ es, c.resolve = .ok es → es.filter (fun e => e.oid = Oid.certificatePolicies) = [e]) ∧
      e.critical = c.profile.certificatePoliciesCritical ∧
      List.Forall₂ (fun text id => Oid.parse (Text.trimmed text) = .ok id)
        (Text.entries c.profile.certificatePolicyId) c.resolved.parsed.policyIds ∧
      Text.isAscii url = true ∧
      (e.value.length ≤ maxLength → ∀ shortest policies, e.policies? shortest = some policies ↔
        policies = PolicyContents.ofIds c.resolved.parsed.policyIds
          ((if notice = "" then [] else [.userNotice c.ca.useUtf8PolicyText notice]) ++
            if url = "" then [] else [.practiceStatement url]) ∧
        ∀ id ∈ c.resolved.parsed.policyIds, shortest ≤ id.octets.length) := by
  intro notice url
  have hparsed := Profile.isParsed_of_parse hparse
  have hwhen : (c.profile.useCertificatePolicies && !c.resolved.parsed.policyIds.isEmpty) = true := by
    rw [huse, Bool.true_and, Bool.not_eq_true', List.isEmpty_eq_false_iff]
    exact hids
  -- The place of the practice statement was checked when the profile was parsed.
  obtain ⟨qualifiers, hqualifiers⟩ : ∃ qualifiers, c.policyQualifiers = .ok qualifiers :=
    ⟨_, policyQualifiers_eq_ok_iff.2 ⟨Text.isAscii_trimmed hparsed.cpsUrl, rfl⟩⟩
  have hpolicies : c.certificatePolicies = .ok (some (.ofElement Oid.certificatePolicies
      c.profile.certificatePoliciesCritical
      (PolicyInformation.listTlv (PolicyInformation.ofIds c.resolved.parsed.policyIds qualifiers)))) :=
    whenever_eq_ok_iff.2 (.inl ⟨hwhen, _, by rw [hqualifiers]; rfl, rfl⟩)
  obtain ⟨hascii, hqualifiers⟩ := policyQualifiers_eq_ok_iff.1 hqualifiers
  refine ⟨_, hpolicies, fun es hes => ?_, rfl, ?_, hascii,
    fun hlength shortest policies => ?_⟩
  · have hsource := c.certificatePolicies_mem_sources
    rw [hpolicies] at hsource
    exact filter_eq_singleton_of_resolve hes hsource
  · exact (mapM_eq_ok_iff.1 hparsed.policyIds).imp fun text id hid => mapError_eq_ok_iff.1 hid
  · rw [hqualifiers, PolicyInformation.policies?_listTlv_iff (Tlv.fits_of_length_encode hlength),
      PolicyInformation.map_contents_ofIds]
    exact and_congr_right fun _ => PolicyInformation.forall_mem_ofIds (P := fun id => shortest ≤ id.octets.length)

end ExtensionContext

/-- A context whose profile has two policies and something to say about them. -/
def Sample.policyContext : ExtensionContext where
  request := request
  altNames := []
  resolved := {
    profile := {
      extendedKeyUsage := []
      useCertificatePolicies := true
      certificatePolicyId := "1.2.3; 2.5.29.32.0"
      policyUserNoticeText := " 𝄞å "
      policyCpsUrl := "http://a" }
    parsed := { policyIds := [⟨[42, 3], rfl⟩, ⟨[85, 29, 32, 0], rfl⟩] }
    plugins := [] }
  ca := authority
  signerKey := request.publicKey

/-- The notice, which has a character of two units, and the place stand with the first policy. -/
theorem ExtensionContext.sample_certificate_policies :
    Sample.policyContext.profile.parse = .ok Sample.policyContext.resolved.parsed ∧
    Sample.policyContext.ca.useUtf8PolicyText = false ∧
    ∃ e, Sample.policyContext.certificatePolicies = .ok (some e) ∧
      e.policies? = some [⟨⟨[42, 3], rfl⟩,
          some [.userNotice false "𝄞å", .practiceStatement "http://a"]⟩,
        ⟨⟨[85, 29, 32, 0], rfl⟩, none⟩] := by
  have hparse : Sample.policyContext.profile.parse = .ok Sample.policyContext.resolved.parsed := by
    decide +kernel
  obtain ⟨e, he, -, -, -, -, hread⟩ := certificate_policies hparse rfl (by decide)
  have hlength : Sample.policyContext.certificatePolicies.toOption.all
      (fun g => g.all fun e => decide (e.value.length ≤ maxLength)) = true := by
    decide +kernel
  rw [he] at hlength
  refine ⟨hparse, rfl, e, he, (hread (of_decide_eq_true hlength) 0 _).2 ⟨?_, fun _ _ => Nat.zero_le _⟩⟩
  decide +kernel

end CertAuthority
