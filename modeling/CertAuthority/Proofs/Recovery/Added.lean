import CertAuthority.Proofs.Recovery.Altered

/-!
# Recipients added to an envelope

The recipients of an envelope stand in the order of their DER forms, so recipients that are added may come before
and after the others. The search for the recipient of a transport key passes over those with other names and those
of other kinds (`withKey?_eq_none`), and nothing else is read from recipients. So a key pair is unwrapped as before
(`KeyPair.unwrap_added`).
-/

namespace CertAuthority

open Der Cipher Recovery

namespace Recovery

variable {e : Envelope} {wrapped : Octets} {recipients : List Recipient}

/-- A recipient with another name or of another kind is not found. -/
lemma withKey?_eq_none {id : Octets} (h : ∀ k, .keyTransport k ∈ recipients → k.recipient ≠ .key id) :
    ∀ r ∈ recipients, r.withKey? id = none := by
  intro r hr
  cases r with
  | keyTransport k => exact if_neg (h k hr)
  | other t => rfl

/-- The elements of the recipients of an envelope that fits fit. -/
lemma fits_of_mem_recipients (h : (TypedContent.tlv ⟨Oid.envelopedData, e.tlv⟩).Fits) :
    ∀ r ∈ e.recipients, r.tlv.Fits := by
  intro r hr
  have hexplicit : (Tlv.explicit 0 e.tlv).Fits := h.of_mem (by simp)
  have henvelope : e.tlv.Fits := hexplicit.of_mem List.mem_cons_self
  rw [Envelope.tlv_eq] at henvelope
  have hset : (Tlv.set (e.recipients.map Recipient.tlv)).Fits := henvelope.of_mem (by simp)
  exact hset.of_mem (List.mem_map_of_mem hr)

/-- Readable recipients are told apart by their elements. -/
lemma nodup_map_tlv (hreadable : ∀ r ∈ recipients, r.IsReadable) (hfits : ∀ r ∈ recipients, r.tlv.Fits)
    (h : recipients.Nodup) : (recipients.map Recipient.tlv).Nodup := by
  refine List.Nodup.map_on (fun r hr s hs heq => ?_) h
  have hread := (hreadable r hr).ofTlv?_tlv (hfits r hr)
  rw [heq, (hreadable s hs).ofTlv?_tlv (hfits s hs)] at hread
  exact (Option.some.inj hread).symm

/-- An envelope with more recipients is read with all of them in order. -/
lemma exists_envelopeOf_added {added : List Recipient} (hwrapped : envelopeOf wrapped = .ok e)
    (hadded : ∀ r ∈ added, r.IsReadable) (hdistinct : added.Nodup) (hnew : ∀ r ∈ added, r ∉ e.recipients)
    (hperm : recipients.Perm (e.recipients ++ added))
    (hfits : (TypedContent.tlv ⟨Oid.envelopedData, { e with recipients }.tlv⟩).Fits) :
    Tlv.Ascending Recipient.tlv e.recipients ∧
      ∃ ordered, ordered.Perm (e.recipients ++ added) ∧ Tlv.Ascending Recipient.tlv ordered ∧
        envelopeOf (TypedContent.tlv ⟨Oid.envelopedData, { e with recipients }.tlv⟩).encode =
          .ok { e with recipients := ordered } := by
  obtain ⟨he, rs, hrs⟩ := Envelope.isReadable_of_envelopeOf hwrapped
  have hreadable : ∀ r ∈ recipients, r.IsReadable := by
    intro r hr
    obtain hr | hr := List.mem_append.1 (hperm.mem_iff.1 hr)
    · exact he.recipients r hr
    · exact hadded r hr
  have hlength : ∀ r ∈ recipients, r.tlv.Fits := fits_of_mem_recipients hfits
  have htlv : ∀ r ∈ recipients, r.tlv.Readable := fun r hr => ⟨(hreadable r hr).known_tlv, hlength r hr⟩
  have hordered : Tlv.Ascending Recipient.tlv e.recipients := by
    refine Tlv.ascending_of_ascendingBy? (fun r hr => htlv r (hperm.mem_iff.2 ?_)) hrs
    exact List.mem_append_left _ ((Tlv.perm_of_ascendingBy? hrs).mem_iff.2 hr)
  have hnodup : recipients.Nodup := by
    refine hperm.nodup_iff.2 (List.Nodup.append hordered.nodup.of_map hdistinct fun r hr hr' => ?_)
    exact hnew r hr' hr
  obtain ⟨ordered, hsort⟩ := Tlv.exists_ascendingBy? (nodup_map_tlv hreadable hlength hnodup)
  obtain ⟨hsame, hascending⟩ := (Tlv.ascendingBy?_eq_some_iff htlv).1 hsort
  have hreadable' : Envelope.IsReadable { e with recipients } := { he with recipients := hreadable }
  exact ⟨hordered, ordered, hsame.trans hperm, hascending, hreadable'.envelopeOf_encode hfits hsort⟩

end Recovery

namespace KeyPair

variable {p : KeyPair} {t : SoftToken} {k : SoftKey} {draw : Draw} {wrapped other : Octets}

/-- What a token has wrapped it unwraps to the same key pair, if the identifier of its algorithm is long enough. -/
lemma unwrap_of_wrap {shortest : Nat} (hactive : t.active = true) (hk : t.keys .keyEncrypt = some k)
    (hdecrypts : k.key.DecryptsOwn) (hwrap : p.wrap t.signingKey draw = .ok wrapped)
    (hshortest : shortest ≤ p.publicKey.algorithm.algorithm.octets.length) :
    unwrap wrapped t.signingKey shortest = .ok p := by
  obtain ⟨encryptedKey, hencrypt, hp, hfits, rfl⟩ := exists_of_wrap hactive hk hwrap
  refine (unwrap_wrappedTlv hactive hk (hdecrypts _ _ _ hencrypt) hfits).trans ?_
  rw [(decode?_encode_iff hp).2 ⟨rfl, hshortest⟩]
  rfl

/-- The recipients of an envelope come in as the one that is found only. -/
lemma unwrap_eq_of_envelopeOf {key : SigningKey} {e e' : Envelope} (shortest : Nat)
    (he : envelopeOf wrapped = .ok e) (he' : envelopeOf other = .ok e') (hcontent : e'.content = e.content)
    (hfind : ∀ info, key.publicKey .keyEncrypt = .ok info →
      e'.recipients.findSome? (Recipient.withKey? info.keyIdentifier) =
        e.recipients.findSome? (Recipient.withKey? info.keyIdentifier)) :
    unwrap other key shortest = unwrap wrapped key shortest := by
  unfold unwrap
  cases hkey : key.publicKey .keyEncrypt with
  | error error => rfl
  | ok info => rw [he, he', ok_bind, ok_bind, ok_bind, ok_bind, hfind info hkey, hcontent]

/-- Readable recipients, none of which is named by the identifier of the transport key, are added to an envelope,
and it is encoded again with the recipients in any order. It is then read with all of them in order, and what is
unwrapped, or the error, is the same as before. So what a token has wrapped it still unwraps, and what has no
recipient for the transport key is still refused. -/
theorem unwrap_added {key : SigningKey} {e : Envelope} {added recipients : List Recipient}
    (hwrapped : envelopeOf wrapped = .ok e)
    (hreadable : ∀ r ∈ added, ∃ t, Recipient.ofTlv? t = some r)
    (hdistinct : added.Nodup) (hnew : ∀ r ∈ added, r ∉ e.recipients)
    (hother : ∀ info, key.publicKey .keyEncrypt = .ok info →
      ∀ k, .keyTransport k ∈ added → k.recipient ≠ .key info.keyIdentifier)
    (hperm : recipients.Perm (e.recipients ++ added))
    (hencoded : Recovery.encoded (TypedContent.tlv ⟨Oid.envelopedData, { e with recipients }.tlv⟩) = .ok other) :
    (∃ ordered, ordered.Perm (e.recipients ++ added) ∧ Tlv.Ascending Recipient.tlv ordered ∧
      envelopeOf other = .ok { e with recipients := ordered }) ∧
    (∀ shortest, unwrap other key shortest = unwrap wrapped key shortest) ∧
    (∀ (p : KeyPair) (t : SoftToken) k draw shortest, key = t.signingKey → t.active = true →
      t.keys .keyEncrypt = some k → k.key.DecryptsOwn → p.wrap key draw = .ok wrapped →
      shortest ≤ p.publicKey.algorithm.algorithm.octets.length → unwrap other key shortest = .ok p) ∧
    (∀ info shortest, key.publicKey .keyEncrypt = .ok info →
      (∀ k, .keyTransport k ∈ e.recipients → k.recipient ≠ .key info.keyIdentifier) →
      unwrap other key shortest = .error (.recovery "no recipient matches the key encryption key")) := by
  have hread : ∀ r ∈ added, r.IsReadable := fun r hr => (hreadable r hr).elim fun t => Recipient.isReadable_of_ofTlv?
  obtain ⟨hfits, hoctets⟩ := encoded_eq_ok_iff.1 (mapError_eq_ok_iff.1 hencoded)
  obtain ⟨hordered, ordered, hadded, hascending, henvelope⟩ :=
    exists_envelopeOf_added hwrapped hread hdistinct hnew hperm hfits
  rw [← hoctets] at henvelope
  have hsame (shortest : Nat) : unwrap other key shortest = unwrap wrapped key shortest :=
    unwrap_eq_of_envelopeOf shortest hwrapped henvelope rfl fun info hinfo =>
      hordered.findSome?_eq hascending hadded (withKey?_eq_none (hother info hinfo))
  refine ⟨⟨ordered, hadded, hascending, henvelope⟩, hsame, ?_, ?_⟩
  · rintro p t k draw shortest rfl hactive hk hdecrypts hwrap hshortest
    rw [hsame]
    exact unwrap_of_wrap hactive hk hdecrypts hwrap hshortest
  · intro info shortest hinfo hnone
    have hfind : e.recipients.findSome? (Recipient.withKey? info.keyIdentifier) = none :=
      List.findSome?_eq_none_iff.2 (withKey?_eq_none hnone)
    rw [hsame, unwrap, hinfo, ok_bind, hwrapped, ok_bind, hfind]
    rfl

end KeyPair

namespace Sample

/-- A recipient with another key, one that is named by its certificate and one with a password. -/
def addedRecipients : List Recipient :=
  [.keyTransport ⟨2, .key [1], .withNull Oid.rsaEncryption, [1, 2]⟩,
    .keyTransport ⟨0, .certificate ⟨[]⟩ ⟨[7]⟩, .withNull Oid.rsaEncryption, [3, 4]⟩,
    .other (.around (Tag.contextConstructed 3)
      [.ofInt 0, (AlgorithmIdentifier.withNull Oid.aes256Cbc).tlv, .ofOctets [5, 6]])]

/-- None of the added recipients is named by the identifier of a key. -/
lemma recipient_ne (info : PublicKeyInfo) :
    ∀ k, .keyTransport k ∈ addedRecipients → k.recipient ≠ .key info.keyIdentifier := by
  have hlength := info.length_keyIdentifier
  intro k hk heq
  simp only [addedRecipients, List.mem_cons, Recipient.keyTransport.injEq, reduceCtorEq, List.not_mem_nil,
    or_false] at hk
  obtain rfl | rfl := hk
  · rw [← RecipientId.key.inj heq] at hlength
    cases hlength
  · cases heq

/-- The envelope of the key pair with more recipients in front of its own. -/
def addedEnvelope (wrapped : Octets) : Except Error Octets := do
  let e ← envelopeOf wrapped
  encoded (TypedContent.tlv ⟨Oid.envelopedData, { e with recipients := addedRecipients ++ e.recipients }.tlv⟩)

/-- The envelope can be encoded with the added recipients. -/
lemma isOk_addedEnvelope :
    ((keyPair.wrap transportToken.signingKey draw).bind addedEnvelope).isOk = true := by
  decide +kernel

end Sample

/-- The token unwraps the key pair although recipients of three kinds were added. -/
theorem KeyPair.sample_unwrap_added : Sample.addedRecipients.Nodup ∧
    (∀ r ∈ Sample.addedRecipients, ∃ t, Recipient.ofTlv? t = some r) ∧ ∃ wrapped e other,
      Sample.keyPair.wrap Sample.transportToken.signingKey Sample.draw = .ok wrapped ∧
      envelopeOf wrapped = .ok e ∧ (∀ r ∈ Sample.addedRecipients, r ∉ e.recipients) ∧
      Recovery.encoded (TypedContent.tlv ⟨Oid.envelopedData,
        { e with recipients := Sample.addedRecipients ++ e.recipients }.tlv⟩) = .ok other ∧
      unwrap other Sample.transportToken.signingKey = .ok Sample.keyPair := by
  have hdistinct : Sample.addedRecipients.Nodup := by decide +kernel
  have hself : ∀ r ∈ Sample.addedRecipients, Recipient.ofTlv? r.tlv = some r := by decide +kernel
  have hreadable : ∀ r ∈ Sample.addedRecipients, ∃ t, Recipient.ofTlv? t = some r := fun r hr => ⟨_, hself r hr⟩
  have hk : Sample.transportToken.keys .keyEncrypt = some ⟨Sample.transportKey, .sha256WithRsa⟩ := rfl
  obtain ⟨other, hother⟩ := exists_of_isOk Sample.isOk_addedEnvelope
  obtain ⟨wrapped, hwrap, hother⟩ := bind_eq_ok_iff.1 hother
  obtain ⟨e, he, hencoded⟩ := bind_eq_ok_iff.1 hother
  have hnames : ∀ info, Sample.transportToken.signingKey.publicKey .keyEncrypt = .ok info →
      ∀ k, .keyTransport k ∈ Sample.addedRecipients → k.recipient ≠ .key info.keyIdentifier :=
    fun info _ => Sample.recipient_ne info
  have hnew : ∀ r ∈ Sample.addedRecipients, r ∉ e.recipients := by
    obtain ⟨encryptedKey, -, -, hfits, rfl⟩ := exists_of_wrap rfl hk hwrap
    cases (envelopeOf_encode hfits).symm.trans he
    intro r hr hmem
    obtain rfl := List.mem_singleton.1 hmem
    exact Sample.recipient_ne _ _ hr rfl
  obtain ⟨-, -, hunwrap, -⟩ := unwrap_added he hreadable hdistinct hnew hnames List.perm_append_comm hencoded
  refine ⟨hdistinct, hreadable, wrapped, e, other, hwrap, he, hnew, hencoded, ?_⟩
  exact hunwrap _ _ _ _ _ rfl rfl hk Sample.decryptsOwn_transportKey hwrap (by decide)

end CertAuthority
