import CertAuthority.Proofs.RevocationList.RoundTrip
import CertAuthority.Proofs.RevocationList.Run

/-!
# Issued revocation lists say what was asked for

A revocation list that was issued is read as a list with one entry for each that was given, in their order,
with the times, the number and the key of the authority (`Authority.issueRevocationList_reads_as_intended`).
-/

namespace CertAuthority

open Der

/-! ### Reading revocation lists -/

/-- Why a certificate is revoked; where no reason is written none was specified. -/
def RevokedCertificate.reason? (c : RevokedCertificate) : Option RevocationReason :=
  match (c.extensions.getD []).find? fun e => e.oid = Oid.reasonCode with
  | none => some .unspecified
  | some e => (Tlv.decode? e.value).bind RevocationReason.ofTlv?

/-- The first extension of a revocation list with an identifier. -/
def RevocationList.extension? (l : RevocationList) (oid : Oid) : Option Extension :=
  (l.tbs.extensions.getD []).find? fun e => e.oid = oid

/-- The integer in a value. -/
def Extension.int? (e : Extension) : Option Int :=
  (Tlv.decode? e.value).bind Tlv.toInt?

/-- The name of the authority's key in a value. -/
def Extension.authorityKey? (e : Extension) : Option Octets :=
  (Tlv.decode? e.value).bind KeyIdentifier.authorityOfTlv?

/-- A certificate is listed as an entry asks for. -/
structure RevocationEntry.IsListedAs (e : RevocationEntry) (c : RevokedCertificate) : Prop where
  serial : c.serial = e.serial
  date : c.date.seconds = e.revokedAt
  reason : c.reason? = some e.reason
  /-- A reason that was not specified is not written. -/
  unspecified : c.extensions = none ↔ e.reason = .unspecified

/-- What a revocation list is intended to say. -/
structure RevocationList.IsIntended (l : RevocationList) (ca : Authority) (entries : List RevocationEntry)
    (number now : Nat) (issuer : Name) (signerKey : PublicKeyInfo) : Prop where
  /-- The version is the second, which is counted as one. -/
  version : l.tbs.version = 1
  issuer : l.tbs.issuer = issuer
  thisUpdate : l.tbs.thisUpdate.seconds = now
  nextUpdate : l.tbs.nextUpdate.map (·.seconds) = some (now + 3600 * ca.crlPeriodHours)
  /-- The certificates are those of the entries, in their order. -/
  revoked : List.Forall₂ RevocationEntry.IsListedAs entries (l.tbs.revoked.getD [])
  revoked_eq_none : l.tbs.revoked = none ↔ entries = []
  hasNumber : (l.extension? Oid.crlNumber).isSome = ca.useCrlNumber
  number : ∀ e ∈ l.extension? Oid.crlNumber, e.int? = some (number : Int)
  hasAuthorityKey : (l.extension? Oid.authorityKeyIdentifier).isSome = ca.useAuthorityKeyIdentifier
  authorityKey : ∀ e ∈ l.extension? Oid.authorityKeyIdentifier,
    e.authorityKey? = some signerKey.keyIdentifier

/-! ### Entries -/

/-- A reason is read again. -/
lemma RevocationReason.ofTlv?_tlv (r : RevocationReason) : ofTlv? r.tlv = some r := by
  cases r <;> decide

/-- The element of a reason is read again. -/
lemma RevocationReason.decode?_encode (r : RevocationReason) : Tlv.decode? r.tlv.encode = some r.tlv := by
  apply Tlv.decode?_encode
  constructor
  · rfl
  · show 1 ≤ maxLength
    decide

namespace RevocationEntry

/-- An entry whose date has a form is listed as it asks for. -/
lemma isListedAs_of_revoked {e : RevocationEntry} {c : RevokedCertificate} (h : e.revoked = .ok c) :
    e.IsListedAs c := by
  obtain ⟨date, hdate, hc⟩ := bind_eq_ok_iff.1 h
  cases hc
  refine ⟨rfl, Authority.eq_of_ofSeconds hdate, ?_, ?_⟩
  · unfold RevokedCertificate.reason? extensions
    by_cases hr : e.reason = .unspecified
    · simp [hr]
    · simp [hr, Extension.ofElement, RevocationReason.decode?_encode, RevocationReason.ofTlv?_tlv]
  · unfold extensions
    by_cases hr : e.reason = .unspecified
    · simp [hr]
    · simp [hr]

end RevocationEntry

/-! ### The signed part -/

namespace Authority

variable {ca : Authority} {entries : List RevocationEntry} {number now next : Nat} {key : SigningKey}
  {signerKey : PublicKeyInfo} {algorithm : SignatureAlgorithm} {tbs : TbsRevocationList}

/-- A signed part that could be put together has one certificate for each entry, in their order, and the
times that were given. -/
lemma exists_of_prepareRevocationList
    (h : ca.prepareRevocationList entries number signerKey algorithm now next = .ok tbs) :
    List.Forall₂ (fun e c => e.revoked = .ok c) entries (tbs.revoked.getD []) ∧
      (tbs.revoked = none ↔ entries = []) ∧ tbs.thisUpdate.seconds = now ∧
      tbs.nextUpdate.map (·.seconds) = some next ∧
      tbs.extensions.getD [] = ca.listExtensions signerKey number := by
  simp only [prepareRevocationList, bind_eq_ok_iff, pure_eq_ok_iff] at h
  obtain ⟨revoked, hrevoked, issuer, -, this, hthis, after, hafter, rfl⟩ := h
  have hall := mapM_eq_ok_iff.1 hrevoked
  have hempty : revoked = [] ↔ entries = [] := by
    rw [← List.length_eq_zero_iff, ← hall.length_eq, List.length_eq_zero_iff]
  refine ⟨?_, ?_, eq_of_ofSeconds hthis, ?_, ?_⟩
  · cases revoked with
    | nil => exact hall
    | cons c cs => exact hall
  · rw [← hempty]
    cases revoked <;> simp
  · rw [Option.map_some, eq_of_ofSeconds hafter]
  · show Option.getD (if (ca.listExtensions signerKey number).isEmpty then _ else _) [] = _
    cases ca.listExtensions signerKey number <;> simp

/-- The number of the list is there exactly if the authority numbers its lists. -/
lemma find?_crlNumber : (ca.listExtensions signerKey number).find? (fun e => e.oid = Oid.crlNumber) =
    if ca.useCrlNumber then some (.ofElement Oid.crlNumber ca.crlNumberCritical (.ofInt number))
    else none := by
  have hne : Oid.authorityKeyIdentifier ≠ Oid.crlNumber := by decide
  unfold listExtensions KeyIdentifier.authority
  cases ca.useAuthorityKeyIdentifier <;> cases ca.useCrlNumber <;> simp [Extension.ofElement, hne]

/-- The key of the authority is named exactly if the authority names it. -/
lemma find?_authorityKeyIdentifier :
    (ca.listExtensions signerKey number).find? (fun e => e.oid = Oid.authorityKeyIdentifier) =
    if ca.useAuthorityKeyIdentifier then
      some (KeyIdentifier.authority ca.authorityKeyIdentifierCritical signerKey.keyIdentifier)
    else none := by
  have hne : Oid.crlNumber ≠ Oid.authorityKeyIdentifier := by decide
  unfold listExtensions KeyIdentifier.authority
  cases ca.useAuthorityKeyIdentifier <;> cases ca.useCrlNumber <;> simp [Extension.ofElement, hne]

/-- A list is current for the hours that the authority sets, up to the last time of 64 bits. -/
lemma nextUpdate_eq_ok_iff :
    ca.nextUpdate now = .ok next ↔ now + 3600 * ca.crlPeriodHours = next ∧ next ≤ maxTime := by
  unfold nextUpdate secondsPerHour
  rw [Nat.mul_comm 3600]
  by_cases hle : now + ca.crlPeriodHours * 3600 ≤ maxTime
  · simp only [hle, if_true, Except.ok.injEq]
    constructor
    · rintro rfl
      exact ⟨rfl, hle⟩
    · exact And.left
  · simp only [hle, if_false]
    constructor
    · nofun
    · rintro ⟨rfl, hnext⟩
      exact absurd hnext hle

/-- The values of the extensions of a revocation list that can be written are short enough to be read. -/
lemma fits_of_mem_extensions {l : TbsRevocationList} {e : Extension} {t : Tlv} (h : l.tlv.Fits)
    (he : e ∈ l.extensions.getD []) (ht : e.value = t.encode) : t.Fits := by
  rw [TbsRevocationList.tlv_eq] at h
  refine Extension.fits_of_mem_getD 0 (fun es hes => h.of_mem ?_) he ht
  simp [TbsRevocationList.fields, TbsRevocationList.optionalFields, TbsRevocationList.revokedFields,
    TbsRevocationList.extensionFields, Option.mem_def.1 hes]

namespace ListRun

variable {list : IssuedRevocationList}

/-- The revocation list that a run makes. -/
def revocationList (run : ListRun ca entries number key now list) : RevocationList :=
  ⟨run.tbs, run.algorithm.identifier, .ofOctets run.signature⟩

/-- The list of a run can be read again if its serial numbers can. -/
lemma readable_revocationList (run : ListRun ca entries number key now list)
    (hserials : ∀ e ∈ entries, e.serial.Readable) : run.revocationList.Readable := by
  refine ⟨fun c hc => ?_, run.fits⟩
  obtain ⟨hrevoked, -⟩ := exists_of_prepareRevocationList run.tbs_eq
  obtain ⟨e, he, hec⟩ := exists_left_of_forall₂ hrevoked hc
  rw [(RevocationEntry.isListedAs_of_revoked hec).serial]
  exact hserials e he

/-- The identifiers that the engine chooses are long enough for its reader. -/
lemma forall_identifiers_iff (run : ListRun ca entries number key now list) :
    (∀ o ∈ run.revocationList.identifiers, 3 ≤ o.octets.length) ↔
      ∀ o ∈ run.tbs.issuer.identifiers, 3 ≤ o.octets.length := by
  obtain ⟨hrevoked, -, -, -, hextensions⟩ := exists_of_prepareRevocationList run.tbs_eq
  -- The extensions of entries and list are the engine's own, so only the issuer can have a short identifier.
  have hentries : ∀ o ∈ (run.tbs.revoked.getD []).flatMap RevokedCertificate.identifiers,
      3 ≤ o.octets.length := by
    intro o ho
    obtain ⟨c, hc, ho⟩ := List.mem_flatMap.1 ho
    obtain ⟨e, -, hec⟩ := exists_left_of_forall₂ hrevoked hc
    obtain ⟨date, -, hc⟩ := bind_eq_ok_iff.1 hec
    cases hc
    unfold RevokedCertificate.identifiers RevocationEntry.extensions at ho
    split at ho
    · cases ho
    · obtain rfl := List.mem_singleton.1 ho
      show 3 ≤ Oid.reasonCode.octets.length
      decide
  have hlist : ∀ e ∈ ca.listExtensions run.signerKey number, 3 ≤ e.oid.octets.length := by
    intro e he
    unfold listExtensions at he
    obtain he | he := List.mem_append.1 he
    · split at he
      · obtain rfl := List.mem_singleton.1 he
        show 3 ≤ Oid.authorityKeyIdentifier.octets.length
        decide
      · cases he
    · split at he
      · obtain rfl := List.mem_singleton.1 he
        show 3 ≤ Oid.crlNumber.octets.length
        decide
      · cases he
  obtain ⟨-, -, hsignature⟩ := of_prepareRevocationList run.tbs_eq
  rw [← hextensions] at hlist
  simp only [RevocationList.identifiers, revocationList, List.forall_mem_append,
    List.forall_mem_singleton, TbsRevocationList.forall_identifiers, hsignature]
  constructor
  · rintro ⟨⟨-, issuer, -⟩, -⟩
    exact issuer
  · intro issuer
    exact ⟨⟨run.algorithm.three_le_length, issuer, hentries, hlist⟩, run.algorithm.three_le_length⟩

/-- The list of a run says what was asked for. -/
lemma isIntended_revocationList (run : ListRun ca entries number key now list) :
    run.revocationList.IsIntended ca entries number now run.tbs.issuer run.signerKey := by
  obtain ⟨hrevoked, hnone, hthis, hnext, hextensions⟩ := exists_of_prepareRevocationList run.tbs_eq
  obtain ⟨-, hversion, -⟩ := of_prepareRevocationList run.tbs_eq
  have hnumber : run.revocationList.extension? Oid.crlNumber = _ :=
    (congrArg (List.find? _) hextensions).trans find?_crlNumber
  have hkey : run.revocationList.extension? Oid.authorityKeyIdentifier = _ :=
    (congrArg (List.find? _) hextensions).trans find?_authorityKeyIdentifier
  -- what is found among the extensions stands in the octets, so its value is short enough
  have hfits : ∀ {oid : Oid} {e : Extension} {t : Tlv}, run.revocationList.extension? oid = some e →
      e.value = t.encode → t.Fits := by
    intro oid e t hfound ht
    exact fits_of_mem_extensions run.tbs_fits (List.mem_of_find?_eq_some hfound) ht
  have hvalue : ∀ {oid : Oid} {e : Extension} {t : Tlv}, run.revocationList.extension? oid = some e →
      e.value = t.encode → t.Known → Tlv.decode? e.value = some t := by
    intro oid e t hfound ht hknown
    rw [ht]
    exact Tlv.decode?_encode ⟨hknown, hfits hfound ht⟩
  refine ⟨hversion, rfl, hthis, ?_, ?_, hnone, ?_, ?_, ?_, ?_⟩
  · rw [(nextUpdate_eq_ok_iff.1 run.next_eq).1]
    exact hnext
  · exact hrevoked.imp fun _ _ => RevocationEntry.isListedAs_of_revoked
  · rw [hnumber]
    cases ca.useCrlNumber <;> rfl
  · intro e he
    have hfound := hnumber ▸ he
    split at hfound
    · cases hfound
      have hdecode := hvalue he rfl (Tlv.known_ofInt _)
      rw [Extension.int?, hdecode]
      exact Tlv.toInt?_ofInt _
    · cases hfound
  · rw [hkey]
    cases ca.useAuthorityKeyIdentifier <;> rfl
  · intro e he
    have hfound := hkey ▸ he
    split at hfound
    · cases hfound
      have hdecode := hvalue he rfl (Tlv.known_sequence _)
      rw [Extension.authorityKey?, hdecode]
      exact KeyIdentifier.authorityOfTlv?_authorityTlv (hfits he rfl)
    · cases hfound

end ListRun

/-- The octets of an issued revocation list are those of a list that says what was asked for. A reader that
takes every identifier reads exactly that list from them; the engine's own reader, which wants identifiers of
three octets or more, reads it too, unless the name of the authority has a shorter one, and never reads
anything else. A period that ends after the last time of 64 bits is refused as soon as the key has answered,
and no time is wrapped. -/
theorem issueRevocationList_reads_as_intended
    (hserials : ∀ e ∈ entries, ∃ bs, bs ≠ [] ∧ SerialNumber.ofOctets bs = .ok e.serial) :
    (∀ list, ca.issueRevocationList entries number key now = .ok list →
      ∃ (signerKey : PublicKeyInfo) (issuer : Name) (l : RevocationList),
        key.publicKey .crlSign = .ok signerKey ∧ ca.issuerName = .ok issuer ∧
        l.IsIntended ca entries number now issuer signerKey ∧
        now + 3600 * ca.crlPeriodHours ≤ maxTime ∧
        RevocationList.decode? list.der 0 = some l ∧
        ∀ m, RevocationList.decode? list.der = some m ↔
          m = l ∧ ∀ o ∈ issuer.identifiers, 3 ≤ o.octets.length) ∧
    (maxTime < now + 3600 * ca.crlPeriodHours →
      ca.issueRevocationList entries number key now = (do
        let _ ← key.publicKey .crlSign
        let _ ← key.algorithm .crlSign
        .error (.invalidProfile "CRL period out of range"))) := by
  refine ⟨fun list h => ?_, fun hperiod => ?_⟩
  · obtain ⟨run⟩ := exists_listRun h
    have hreadable : run.revocationList.Readable := by
      apply run.readable_revocationList
      intro e he
      obtain ⟨bs, hne, hbs⟩ := hserials e he
      exact SerialNumber.readable_of_ofOctets hne hbs
    have hder : list.der = run.revocationList.tlv.encode := run.der_eq
    obtain ⟨hissuer, -, -⟩ := of_prepareRevocationList run.tbs_eq
    obtain ⟨hnext, hlast⟩ := nextUpdate_eq_ok_iff.1 run.next_eq
    refine ⟨run.signerKey, run.tbs.issuer, run.revocationList, run.signerKey_eq, hissuer,
      run.isIntended_revocationList, Nat.le_trans (Nat.le_of_eq hnext) hlast, ?_, ?_⟩
    · rw [hder, RevocationList.decode?_encode_iff hreadable]
      exact ⟨rfl, fun _ _ => Nat.zero_le _⟩
    · intro m
      rw [hder, ← run.forall_identifiers_iff]
      exact RevocationList.decode?_encode_iff hreadable
  · have hnext : ca.nextUpdate now = .error (.invalidProfile "CRL period out of range") := by
      unfold nextUpdate secondsPerHour
      exact if_neg (by omega)
    rw [issueRevocationList, hnext]
    rfl

/-- A list with one entry whose number has its highest bit set is read again; a period that is too long is
refused. -/
theorem sample_list_reads_as_intended :
    (∀ e ∈ Sample.entries, ∃ bs, bs ≠ [] ∧ SerialNumber.ofOctets bs = .ok e.serial) ∧
    (∃ list issuer signerKey l,
      Sample.authority.issueRevocationList Sample.entries (2 ^ 64 - 1) Sample.token.signingKey
        Sample.now = .ok list ∧
      RevocationList.decode? list.der 0 = some l ∧
      l.IsIntended Sample.authority Sample.entries (2 ^ 64 - 1) Sample.now issuer signerKey) ∧
    issueRevocationList { Sample.authority with crlPeriodHours := maxTime } Sample.entries 1
      Sample.token.signingKey Sample.now = .error (.invalidProfile "CRL period out of range") := by
  have hserials : ∀ e ∈ Sample.entries, ∃ bs, bs ≠ [] ∧ SerialNumber.ofOctets bs = .ok e.serial := by
    intro e he
    obtain rfl := List.mem_singleton.1 he
    exact ⟨[5], by decide, rfl⟩
  have hok : (Sample.authority.issueRevocationList Sample.entries (2 ^ 64 - 1) Sample.token.signingKey
      Sample.now).isOk = true := by
    decide +kernel
  obtain ⟨list, hlist⟩ := exists_of_isOk hok
  obtain ⟨signerKey, issuer, l, -, -, hl, -, hdecode, -⟩ :=
    (issueRevocationList_reads_as_intended hserials).1 list hlist
  refine ⟨hserials, ⟨list, issuer, signerKey, l, hlist, hdecode, hl⟩, ?_⟩
  exact (issueRevocationList_reads_as_intended hserials).2 (by decide)

end Authority

end CertAuthority
