import CertAuthority.Proofs.Recovery.Altered

/-!
# How wrapping and unwrapping fail

Both ask the holder of the transport key for its public half. Unwrapping asks it moreover to decrypt the content
key, if what is unwrapped transports one to it (`Recovery.Transports`). Whatever else goes wrong is a failure of the
recovery, and so is an error of the second question unless the token is off line. But an error of the first
question is passed on, whatever it is (`KeyPair.wrap_unwrap_fails`).
-/

namespace CertAuthority

open Der Cipher Recovery

/-- The error is a failure of the recovery. -/
def Error.IsRecovery : Error → Prop
  | recovery _ => True
  | _ => False

namespace Recovery

/-- What is reported of an error of the token that was asked to decrypt a content key. -/
def transportError : Error → Error
  | .tokenOffline purpose => .tokenOffline purpose
  | e => .recovery ("content key transport: " ++ e.message)

/-- Every error of the token is reported as a failure of the recovery but that it is off line. -/
lemma transportError_cases (e : Error) :
    (transportError e).IsRecovery ∨ ∃ purpose, e = .tokenOffline purpose := by
  cases e with
  | tokenOffline purpose => exact .inr ⟨purpose, rfl⟩
  | _ => exact .inl trivial

/-- The encrypted content key that an envelope transports to the recipient with an identifier, and the content. -/
def transported (id wrapped : Octets) : Except Error (Octets × EncryptedContent) := do
  let e ← envelopeOf wrapped
  let recipient ← orFail "no recipient matches the key encryption key"
    (e.recipients.findSome? (Recipient.withKey? id))
  if recipient.algorithm.algorithm ≠ Oid.rsaEncryption then
    throw (.recovery ("unsupported key encryption algorithm " ++ recipient.algorithm.algorithm.text))
  return (recipient.encryptedKey, e.content)

/-- The octets of an envelope that transports an encrypted content key to the recipient with an identifier. -/
inductive Transports (id wrapped : Octets) : Octets → Prop where
  | intro {e : Envelope} {recipient : KeyTransport} :
    envelopeOf wrapped = .ok e →
    e.recipients.findSome? (Recipient.withKey? id) = some recipient →
    recipient.algorithm.algorithm = Oid.rsaEncryption →
    Transports id wrapped recipient.encryptedKey

/-- An envelope transports a key exactly if it can be taken out of it with a content. -/
lemma transports_iff {id wrapped ct : Octets} :
    Transports id wrapped ct ↔ ∃ c, transported id wrapped = .ok (ct, c) := by
  simp only [transported, bind_eq_ok_iff, orFail_eq_ok_iff]
  constructor
  · rintro @⟨e, recipient, he, hrecipient, halgorithm⟩
    refine ⟨e.content, e, he, recipient, hrecipient, ?_⟩
    rw [if_neg (not_not.2 halgorithm)]
    rfl
  · rintro ⟨c, e, he, recipient, hrecipient, h⟩
    by_cases halgorithm : recipient.algorithm.algorithm = Oid.rsaEncryption
    · rw [if_neg (not_not.2 halgorithm)] at h
      cases h
      exact .intro he hrecipient halgorithm
    · rw [if_pos halgorithm] at h
      cases h

/-- An envelope that holds a key pair transports its content key. -/
lemma Holds.transports {id wrapped : Octets} {s : Sealed} (h : Holds id wrapped s) :
    Transports id wrapped s.encryptedKey := by
  obtain ⟨he, hrecipient, halgorithm, -⟩ := h
  exact .intro he hrecipient halgorithm

/-- What is not there is a failure of the recovery. -/
lemma orFail_failsOnly {α : Type} {details : String} {o : Option α} :
    FailsOnly Error.IsRecovery (orFail details o) := by
  cases o with
  | none => exact .error trivial
  | some a => exact .ok a

/-- An element that is too long is a failure of the recovery. -/
lemma encoded_failsOnly {t : Tlv} : FailsOnly Error.IsRecovery (encoded t) :=
  .mapError _ fun _ => trivial

/-- Octets that are no envelope are a failure of the recovery. -/
lemma envelopeOf_failsOnly {wrapped : Octets} : FailsOnly Error.IsRecovery (envelopeOf wrapped) :=
  .bind orFail_failsOnly fun _ _ => .ite (.error trivial) orFail_failsOnly

/-- An envelope without a recipient that can be used is a failure of the recovery. -/
lemma transported_failsOnly {id wrapped : Octets} : FailsOnly Error.IsRecovery (transported id wrapped) := by
  refine .bind envelopeOf_failsOnly fun _ _ => ?_
  exact .bind orFail_failsOnly fun _ _ => .ite (.error trivial) (.ok _)

/-- A content that cannot be decrypted is a failure of the recovery. -/
lemma decryptContent_failsOnly {contentKey : Aes.Key} {c : EncryptedContent} :
    FailsOnly Error.IsRecovery (decryptContent contentKey c) := by
  refine .ite (.error trivial) ?_
  refine .bind orFail_failsOnly fun _ _ => ?_
  refine .bind orFail_failsOnly fun _ _ => ?_
  refine .bind orFail_failsOnly fun _ _ => ?_
  exact .bind orFail_failsOnly fun _ _ => orFail_failsOnly

/-- A content key of the supported algorithm is what the holder of the transport key makes of it. -/
lemma contentKeyOf_eq {key : SigningKey} {k : KeyTransport} (h : k.algorithm.algorithm = Oid.rsaEncryption) :
    contentKeyOf key k = (key.decrypt .keyEncrypt k.encryptedKey).mapError transportError >>= fun octets =>
      orFail "content key has the wrong size" (Aes.Key.ofOctets? octets) := by
  rw [contentKeyOf, if_neg (not_not.2 h)]
  cases key.decrypt .keyEncrypt k.encryptedKey with
  | ok octets => rfl
  | error e => cases e <;> rfl

end Recovery

namespace KeyPair

variable {p : KeyPair} {key : SigningKey} {draw : Draw} {info : PublicKeyInfo}

/-- With the public half of the transport key, wrapping succeeds or is a failure of the recovery. -/
lemma wrap_failsOnly (h : key.publicKey .keyEncrypt = .ok info) :
    FailsOnly Error.IsRecovery (p.wrap key draw) := by
  rw [wrap, h, ok_bind]
  refine .bind (.mapError _ fun _ => trivial) fun _ _ => ?_
  refine .bind encoded_failsOnly fun _ _ => ?_
  exact .bind (.mapError _ fun _ => trivial) fun _ _ => encoded_failsOnly

/-- What is left to do with the octets of a content key. -/
def opened (c : EncryptedContent) (shortest : Nat) (octets : Octets) : Except Error KeyPair := do
  let contentKey ← orFail "content key has the wrong size" (Aes.Key.ofOctets? octets)
  let octets ← decryptContent contentKey c
  orFail "key pair: malformed value" (KeyPair.decode? octets shortest)

/-- A content that cannot be opened by a content key is a failure of the recovery. -/
lemma opened_failsOnly {c : EncryptedContent} {shortest : Nat} {octets : Octets} :
    FailsOnly Error.IsRecovery (opened c shortest octets) :=
  .bind orFail_failsOnly fun _ _ => .bind decryptContent_failsOnly fun _ _ => orFail_failsOnly

/-- Unwrapping goes by what the envelope transports, and by the answer of the token to it. -/
lemma unwrap_eq {wrapped : Octets} {shortest : Nat} (h : key.publicKey .keyEncrypt = .ok info) :
    unwrap wrapped key shortest = transported info.keyIdentifier wrapped >>= fun found =>
      (key.decrypt .keyEncrypt found.1).mapError transportError >>= opened found.2 shortest := by
  rw [unwrap, h, ok_bind, transported, bind_assoc]
  refine bind_congr fun e => ?_
  rw [bind_assoc]
  refine bind_congr fun recipient => ?_
  by_cases halgorithm : recipient.algorithm.algorithm = Oid.rsaEncryption
  · rw [contentKeyOf_eq halgorithm, if_neg (not_not.2 halgorithm), bind_assoc]
    rfl
  · rw [contentKeyOf, if_pos halgorithm, if_pos halgorithm]
    rfl

/-- A content key that the token fails to decrypt is not unwrapped. -/
lemma unwrap_of_transports {wrapped ct : Octets} {shortest : Nat} {e : Error}
    (h : key.publicKey .keyEncrypt = .ok info) (hct : Transports info.keyIdentifier wrapped ct)
    (he : key.decrypt .keyEncrypt ct = .error e) : unwrap wrapped key shortest = .error (transportError e) := by
  obtain ⟨c, hfound⟩ := transports_iff.1 hct
  rw [unwrap_eq h, hfound, ok_bind, he]
  rfl

/-- Only a token that was asked and said so is reported as off line. -/
lemma cases_of_unwrap_eq_error {wrapped : Octets} {shortest : Nat} {e : Error}
    (h : key.publicKey .keyEncrypt = .ok info) (he : unwrap wrapped key shortest = .error e) :
    e.IsRecovery ∨ ∃ purpose ct, e = .tokenOffline purpose ∧ Transports info.keyIdentifier wrapped ct ∧
      key.decrypt .keyEncrypt ct = .error e := by
  rw [unwrap_eq h] at he
  cases hfound : transported info.keyIdentifier wrapped with
  | error failure =>
    rw [hfound] at he
    cases he
    exact .inl (transported_failsOnly e hfound)
  | ok found =>
    obtain ⟨ct, c⟩ := found
    rw [hfound, ok_bind] at he
    cases hdecrypt : key.decrypt .keyEncrypt ct with
    | ok octets =>
      rw [hdecrypt] at he
      exact .inl (opened_failsOnly e he)
    | error answer =>
      rw [hdecrypt] at he
      cases he
      obtain hrecovery | ⟨purpose, rfl⟩ := transportError_cases answer
      · exact .inl hrecovery
      · exact .inr ⟨purpose, ct, rfl, transports_iff.2 ⟨c, hfound⟩, hdecrypt⟩

/-- Unwrapping asks for nothing else. -/
lemma unwrap_congr {other : SigningKey} {wrapped : Octets} {shortest : Nat}
    (h : key.publicKey .keyEncrypt = .ok info) (hother : other.publicKey .keyEncrypt = .ok info)
    (hsame : ∀ ct, Transports info.keyIdentifier wrapped ct →
      other.decrypt .keyEncrypt ct = key.decrypt .keyEncrypt ct) :
    unwrap wrapped other shortest = unwrap wrapped key shortest := by
  rw [unwrap_eq h, unwrap_eq hother]
  cases hfound : transported info.keyIdentifier wrapped with
  | error failure => rfl
  | ok found => rw [ok_bind, ok_bind, hsame found.1 (transports_iff.2 ⟨found.2, hfound⟩)]

/-- How wrapping and unwrapping fail, whatever the holder of the transport key answers. If it does not give its
public half, both fail as it does. If it does, wrapping asks nothing else and only fails as a recovery; unwrapping
asks nothing but to decrypt the content key that is transported to it. An error of this question is reported as
that of a token off line if it is one, else as a failure of the recovery, as is everything else. -/
theorem wrap_unwrap_fails (p : KeyPair) (key : SigningKey) (draw : Draw) (wrapped : Octets) (shortest : Nat) :
    (∀ e, key.publicKey .keyEncrypt = .error e →
      p.wrap key draw = .error e ∧ unwrap wrapped key shortest = .error e) ∧
    ∀ info, key.publicKey .keyEncrypt = .ok info →
      (∀ e, p.wrap key draw = .error e → e.IsRecovery) ∧
      (∀ ct e, Transports info.keyIdentifier wrapped ct → key.decrypt .keyEncrypt ct = .error e →
        unwrap wrapped key shortest = .error (transportError e)) ∧
      (∀ e, unwrap wrapped key shortest = .error e → e.IsRecovery ∨ ∃ purpose ct, e = .tokenOffline purpose ∧
        Transports info.keyIdentifier wrapped ct ∧ key.decrypt .keyEncrypt ct = .error e) ∧
      ∀ other : SigningKey, other.publicKey .keyEncrypt = .ok info →
        p.wrap other draw = p.wrap key draw ∧
        ((∀ ct, Transports info.keyIdentifier wrapped ct →
          other.decrypt .keyEncrypt ct = key.decrypt .keyEncrypt ct) →
            unwrap wrapped other shortest = unwrap wrapped key shortest) := by
  refine ⟨fun e he => ?_, fun info h => ⟨wrap_failsOnly h, fun ct e => unwrap_of_transports h,
    fun e => cases_of_unwrap_eq_error h, fun other hother => ⟨?_, unwrap_congr h hother⟩⟩⟩
  · rw [wrap, unwrap, he]
    exact ⟨rfl, rfl⟩
  · rw [wrap, wrap, hother, h]

end KeyPair

namespace Sample

/-- The transport key of the token, where every decryption fails with an error. -/
def failingKey (e : Error) : SigningKey :=
  { transportToken.signingKey with decrypt := fun _ _ => .error e }

/-- A transport key whose public half cannot be written down. -/
def brokenKey : SigningKey :=
  { transportToken.signingKey with publicKey := fun _ => .error .der }

end Sample

namespace KeyPair

/-- What the token has wrapped is not unwrapped where decrypting it fails: off line is said, any other error is a
failure of the recovery. -/
theorem sample_unwrap_fails : ∃ wrapped,
    Sample.keyPair.wrap Sample.transportToken.signingKey Sample.draw = .ok wrapped ∧
      unwrap wrapped (Sample.failingKey (.tokenOffline .keyEncrypt)) = .error (.tokenOffline .keyEncrypt) ∧
      unwrap wrapped (Sample.failingKey (.tokenOperation .keyEncrypt "no session")) = .error (.recovery
        "content key transport: CA token keyEncrypt operation failed: no session") := by
  obtain ⟨wrapped, hwrap⟩ := exists_of_isOk Sample.isOk_wrap
  have hk : Sample.transportToken.keys .keyEncrypt = some ⟨Sample.transportKey, .sha256WithRsa⟩ := rfl
  obtain ⟨encryptedKey, -, -, hfits, rfl⟩ := exists_of_wrap rfl hk hwrap
  have htransports := (Sealed.holds_encode hfits).transports
  have hfails (e : Error) : unwrap _ (Sample.failingKey e) = .error (transportError e) :=
    ((wrap_unwrap_fails Sample.keyPair (Sample.failingKey e) Sample.draw _ shortestOid).2 _ rfl).2.1 _ e
      htransports rfl
  have hreported : transportError (.tokenOperation .keyEncrypt "no session") =
      .recovery "content key transport: CA token keyEncrypt operation failed: no session" := by decide +kernel
  exact ⟨_, hwrap, hfails _, hreported ▸ hfails _⟩

/-- A transport key fails to give its public half without being off line, and neither wrapping nor unwrapping
reports a failure of the recovery. -/
theorem exists_wrap_fails_otherwise :
    Sample.keyPair.wrap Sample.brokenKey Sample.draw = .error .der ∧ unwrap [0] Sample.brokenKey = .error .der ∧
      (∀ purpose, Sample.brokenKey.publicKey .keyEncrypt ≠ .error (.tokenOffline purpose)) ∧
      ∀ details, Error.der ≠ .recovery details :=
  ⟨rfl, rfl, nofun, nofun⟩

end KeyPair

end CertAuthority
