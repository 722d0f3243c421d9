import CertAuthority.Proofs.Certificate.Reattach
import CertAuthority.Proofs.Config.Loaded
import CertAuthority.Proofs.Der.Integer

/-!
# Serial numbers have the configured width

The first two bits of a drawn number are `01`. The number is therefore positive, and its octets are its
shortest form both as a natural number and as an integer: no octet is for padding and none for the sign. All
other bits are those that were drawn (`Authority.serials_have_width`).
-/

namespace CertAuthority

open Der

namespace SerialNumber

/-- The widths that are allowed. -/
lemma allowed_iff {width : Nat} : (minWidth ≤ width && width ≤ maxWidth) = true ↔ 8 ≤ width ∧ width ≤ 20 := by
  rw [Bool.and_eq_true, decide_eq_true_eq, decide_eq_true_eq]
  rfl

/-- A width is accepted exactly if it is between 8 and 20. -/
lemma checkWidth_eq_ok_iff {width : Nat} : checkWidth width = .ok () ↔ 8 ≤ width ∧ width ≤ 20 := by
  unfold checkWidth
  split
  · rename_i h
    exact iff_of_true rfl (allowed_iff.1 h)
  · rename_i h
    exact iff_of_false nofun fun hallowed => h (allowed_iff.2 hallowed)

/-- A width that is not allowed is reported together with those that are. -/
lemma checkWidth_of_not {width : Nat} (h : ¬ (8 ≤ width ∧ width ≤ 20)) :
    checkWidth width = .error (.invalidProfile ("serial width " ++ toString width ++ " outside 8..=20")) := by
  rw [checkWidth, if_neg fun hallowed => h (allowed_iff.1 hallowed), String.append_assoc, String.append_assoc,
    String.append_assoc]
  rfl

/-- Marking an octet leaves its low six bits and sets the seventh alone. -/
lemma toNat_mark (b : UInt8) : ((b &&& 0x3F) ||| 0x40).toNat = 64 + b.toNat % 64 := by
  have hlow : b.toNat &&& 63 = b.toNat % 64 := Nat.and_two_pow_sub_one_eq_mod b.toNat 6
  have hmark : 64 + b.toNat % 64 = 64 ||| b.toNat % 64 :=
    Nat.two_pow_add_eq_or_of_lt (Nat.mod_lt b.toNat (by decide : 0 < 2 ^ 6)) 1
  rw [UInt8.toNat_or, UInt8.toNat_and, hmark, Nat.or_comm]
  exact congrArg (64 ||| ·) hlow

/-- A marked octet is not zero. -/
lemma mark_ne_zero (b : UInt8) : ((b &&& 0x3F) ||| 0x40) ≠ 0 := by
  intro h
  have hzero := congrArg UInt8.toNat h
  rw [toNat_mark] at hzero
  exact absurd hzero (by simp)

/-- The bits of a marked number are a one in front of all drawn bits but the first two. -/
lemma toNat_markTop {drawn : Octets} (hne : drawn ≠ []) : Octets.toNat (markTop drawn) =
    2 ^ (8 * drawn.length - 2) + Octets.toNat drawn % 2 ^ (8 * drawn.length - 2) := by
  obtain ⟨b, bs, rfl⟩ := List.exists_cons_of_ne_nil hne
  have hpow : 2 ^ (8 * (b :: bs).length - 2) = 256 ^ bs.length * 64 := by
    have hexp : 8 * (b :: bs).length - 2 = 8 * bs.length + 6 := by
      rw [List.length_cons]
      omega
    rw [hexp, Nat.pow_add, Nat.pow_mul]
  have hpos : 0 < 256 ^ bs.length := Nat.pow_pos (by decide)
  have hdiv : (b.toNat * 256 ^ bs.length + Octets.toNat bs) / 256 ^ bs.length = b.toNat := by
    rw [Nat.mul_comm, Nat.mul_add_div hpos, Nat.div_eq_of_lt (Octets.toNat_lt bs), Nat.add_zero]
  have hmod : (b.toNat * 256 ^ bs.length + Octets.toNat bs) % 256 ^ bs.length = Octets.toNat bs := by
    rw [Nat.mul_comm, Nat.mul_add_mod, Nat.mod_eq_of_lt (Octets.toNat_lt bs)]
  rw [hpow, markTop, Octets.toNat_cons, Octets.toNat_cons, toNat_mark, Nat.mod_mul, hdiv, hmod, Nat.add_mul]
  simp only [Nat.mul_comm, Nat.add_assoc, Nat.add_comm]

/-- Marking does not change the length. -/
@[simp] lemma length_markTop (drawn : Octets) : (markTop drawn).length = drawn.length := by
  cases drawn <;> rfl

/-- As many octets as the width asks for are all used. -/
lemma draw_eq {width : Nat} {drawn : Octets} (h : drawn.length = width) :
    draw width drawn = ⟨markTop drawn⟩ := by
  rw [draw, ← h, List.take_left]

/-- A drawn number of any width has that many octets. -/
lemma length_draw (width : Nat) (drawn : Octets) : (draw width drawn).content.length = width := by
  rw [draw, length_markTop, List.length_take, List.length_append, List.length_replicate]
  omega

/-- A marked number is accepted as it is. -/
lemma ofOctets_markTop {drawn : Octets} (hlength : drawn.length ≤ maxWidth) :
    ofOctets (markTop drawn) = .ok ⟨markTop drawn⟩ := by
  have hcontent : positiveContent (markTop drawn) = markTop drawn := by
    cases drawn with
    | nil => rfl
    | cons b bs =>
      have hstrip : stripZeros (markTop (b :: bs)) = markTop (b :: bs) := by
        unfold stripZeros
        split
        · rename_i heq
          exact absurd (List.cons.inj heq).1 (mark_ne_zero b)
        · rfl
      rw [positiveContent, hstrip]
      exact if_pos (markTop_lt b)
  unfold ofOctets
  rw [hcontent]
  exact if_pos (length_markTop drawn ▸ hlength)

/-- A number of a width that is made of as many drawn octets. -/
structure IsDrawn (width : Nat) (drawn : Octets) (s : SerialNumber) : Prop where
  /-- The octets with the first two bits replaced are accepted as a number from outside would be. -/
  made : ofOctets (markTop drawn) = .ok s
  length : s.content.length = width
  positive : 0 < signedValue s.content
  /-- The octets are the shortest ones of the natural number: none is for padding. -/
  unsigned : s.content = Octets.ofNat (Octets.toNat s.content)
  /-- The octets are the shortest ones of the integer: none is for the sign. -/
  signed : s.tlv = .ofInt (Octets.toNat s.content)
  /-- All bits but the first two are those that were drawn. -/
  value : Octets.toNat s.content = 2 ^ (8 * width - 2) + Octets.toNat drawn % 2 ^ (8 * width - 2)

/-- A number of a width that is allowed is drawn as it should be. -/
lemma isDrawn_draw {width : Nat} {drawn : Octets} (hpos : 0 < width) (hle : width ≤ maxWidth)
    (h : drawn.length = width) : (draw width drawn).IsDrawn width drawn := by
  have hne : drawn ≠ [] := List.ne_nil_of_length_pos (h ▸ hpos)
  have hvalue := toNat_markTop hne
  rw [draw_eq h]
  refine ⟨ofOctets_markTop (h ▸ hle), (length_markTop drawn).trans h, ?_, ?_, ?_, h ▸ hvalue⟩
  all_goals obtain ⟨b, bs, rfl⟩ := List.exists_cons_of_ne_nil hne
  · have hsigned : signedValue (markTop (b :: bs)) = Octets.toNat (markTop (b :: bs)) :=
      if_pos (markTop_lt b)
    rw [hsigned, hvalue]
    exact Int.natCast_pos.2 (Nat.add_pos_left (Nat.pow_pos (by decide)) _)
  · exact (Octets.ofNat_toNat (mark_ne_zero b) bs).symm
  · exact congrArg (Tlv.mk Tag.integer) (intContent_toNat (mark_ne_zero b) (markTop_lt b) bs).symm

/-- Two draws give the same number only if they agree in every bit but the first two. -/
lemma draw_inj {width : Nat} {drawn other : Octets} (hpos : 0 < width) (h : drawn.length = width)
    (ho : other.length = width) : draw width drawn = draw width other ↔
      ∀ i < 8 * width - 2, (Octets.toNat drawn).testBit i = (Octets.toNat other).testBit i := by
  have hne : drawn ≠ [] := List.ne_nil_of_length_pos (h ▸ hpos)
  have hne' : other ≠ [] := List.ne_nil_of_length_pos (ho ▸ hpos)
  have hvalues : draw width drawn = draw width other ↔
      Octets.toNat drawn % 2 ^ (8 * width - 2) = Octets.toNat other % 2 ^ (8 * width - 2) := by
    rw [draw_eq h, draw_eq ho, mk.injEq, ← Nat.add_right_inj (n := 2 ^ (8 * width - 2))]
    have hd := toNat_markTop hne
    have hd' := toNat_markTop hne'
    rw [h] at hd
    rw [ho] at hd'
    rw [← hd, ← hd']
    refine ⟨congrArg Octets.toNat, Octets.eq_of_toNat ?_⟩
    rw [length_markTop, length_markTop, h, ho]
  rw [hvalues]
  constructor
  · intro heq i hi
    have hbit := congrArg (Nat.testBit · i) heq
    simpa only [Nat.testBit_mod_two_pow, hi, decide_true, Bool.true_and] using hbit
  · intro hbits
    apply Nat.eq_of_testBit_eq
    intro i
    rw [Nat.testBit_mod_two_pow, Nat.testBit_mod_two_pow]
    by_cases hi : i < 8 * width - 2
    · rw [hbits i hi]
    · simp only [hi, decide_false, Bool.false_and]

end SerialNumber

namespace Authority

/-- The steps of issuing that come before the serial number do not fail: the token has a key, there is a
time at which the certificate is valid, and all names have a form. -/
structure IsReady (ca : Authority) (request : Request) (p : ResolvedProfile) (key : SigningKey)
    (now : Nat) : Prop where
  publicKey : ∃ k, key.publicKey .certSign = .ok k
  algorithm : ∃ a, key.algorithm .certSign = .ok a
  window : ∃ w, Validity.resolve now request p.profile (ca.certificate.map (·.notAfter)) = .ok w
  subject : ∃ n, ca.subjectName request p = .ok n
  altNames : ∃ names, subjectAltNames request p = .ok names
  issuer : ∃ n, ca.issuerName = .ok n

variable {ca : Authority} {request : Request} {p : ResolvedProfile} {key : SigningKey} {now : Nat}

/-- A width that is not allowed is what issuing reports once everything before it is fine. -/
lemma IsReady.issue_of_checkWidth (h : ca.IsReady request p key now) {e : Error}
    (he : SerialNumber.checkWidth ca.serialNumberWidth = .error e) (drawn : Octets) :
    ca.issue request p key now drawn = .error e := by
  obtain ⟨⟨signerKey, hk⟩, ⟨algorithm, ha⟩, ⟨window, hw⟩, ⟨subject, hs⟩, ⟨names, hn⟩, ⟨issuer, hi⟩⟩ := h
  have hprepare : ca.prepareCertificate request p signerKey algorithm window drawn = .error e := by
    rw [prepareCertificate, hs, ok_bind, hn, ok_bind, hi, ok_bind, he]
    rfl
  rw [issue, hk, ok_bind, ha, ok_bind, hw, ok_bind, hprepare]
  rfl

/-- Every check on the configuration of an authority blames the configuration. -/
lemma validate_failsOnly : FailsOnly Error.IsInvalidProfile ca.validate := by
  have hheading {α : Type} {heading : String} {r : Except ParseError α} :
      FailsOnly Error.IsInvalidProfile (ParsedProfile.underHeading heading r) := .mapError r fun _ => trivial
  have hplace (text : String) : FailsOnly Error.IsInvalidProfile (checkPlace text) := .ite (.ok _) (.error trivial)
  have hrest : FailsOnly Error.IsInvalidProfile (do
      if ca.crlPeriodHours = 0 then throw (.invalidProfile "CRL period must be at least one hour")
      SerialNumber.checkWidth ca.serialNumberWidth) :=
    .ite (.error trivial) (.ite (.ok _) (.error trivial))
  refine .bind hheading fun dn _ => .ite (.error trivial) (.bind hheading fun _ _ => ?_)
  refine .bind (.forM fun _ _ => .bind hheading fun _ _ => .ok _) fun _ _ => ?_
  exact .bind (.forM fun _ _ => hplace _) fun _ _ => hrest

/-- Serial numbers have the configured width. A width is accepted from eight octets to twenty. Whatever is
drawn, a number of such a width is then made: it is positive, its content is as long as the width and has no
octet for padding or for the sign, and it is the same for two draws only if they agree in all bits but the
first two. Every certificate that an authority issues has a serial number of the configured width, and where
the width is not accepted, neither is the configuration, and nothing is issued: once the token, the time and
the names are fine, the width is what is wrong. -/
theorem serials_have_width (width : Nat) :
    (SerialNumber.checkWidth width = .ok () ↔ 8 ≤ width ∧ width ≤ 20) ∧
    (8 ≤ width → width ≤ 20 → ∀ drawn : Octets, drawn.length = width →
      (SerialNumber.draw width drawn).IsDrawn width drawn ∧
      ∀ other : Octets, other.length = width →
        (SerialNumber.draw width drawn = SerialNumber.draw width other ↔
          ∀ i < 8 * width - 2, (Octets.toNat drawn).testBit i = (Octets.toNat other).testBit i)) ∧
    ∀ ca : Authority, ca.serialNumberWidth = width →
      (∀ (request : Request) (p : ResolvedProfile) (key : SigningKey) (now : Nat) (drawn : Octets)
        (cert : IssuedCertificate), ca.issue request p key now drawn = .ok cert →
          ∃ c, Certificate.decode? cert.der 0 = some c ∧ c.tbs.serial = cert.serial ∧
            c.tbs.serial.content.length = width) ∧
      (¬ (8 ≤ width ∧ width ≤ 20) →
        (∃ details, ca.validate = .error (.invalidProfile details)) ∧
        ∀ (request : Request) (p : ResolvedProfile) (key : SigningKey) (now : Nat) (drawn : Octets),
          ca.IsReady request p key now → ca.issue request p key now drawn =
            .error (.invalidProfile ("serial width " ++ toString width ++ " outside 8..=20"))) := by
  refine ⟨SerialNumber.checkWidth_eq_ok_iff, fun hmin hmax drawn hdrawn => ?_, ?_⟩
  · have hpos : 0 < width := Nat.lt_of_lt_of_le (by decide) hmin
    exact ⟨SerialNumber.isDrawn_draw hpos hmax hdrawn, fun other => SerialNumber.draw_inj hpos hdrawn⟩
  rintro ca rfl
  refine ⟨fun request p key now drawn cert hissue => ?_, fun hwidth => ⟨?_, ?_⟩⟩
  · obtain ⟨run⟩ := exists_issueRun hissue
    obtain ⟨parts, hparts⟩ := exists_isPrepared run.tbs_eq
    refine ⟨run.certificate, run.decode?_zero, run.serial_eq.symm, ?_⟩
    exact (congrArg (·.content.length) hparts.serial).trans (SerialNumber.length_draw _ drawn)
  · cases hvalidate : ca.validate with
    | ok _ => exact absurd (SerialNumber.checkWidth_eq_ok_iff.1 (isChecked_of_validate hvalidate).width) hwidth
    | error e =>
      obtain ⟨details, rfl⟩ := (validate_failsOnly e hvalidate).exists_eq
      exact ⟨details, rfl⟩
  · intro request p key now drawn hready
    exact hready.issue_of_checkWidth (SerialNumber.checkWidth_of_not hwidth) drawn

end Authority

namespace Sample

/-- An authority that asks for numbers that are too long. -/
def wideAuthority : Authority :=
  { authority with serialNumberWidth := 21 }

/-- The authority with wide serial numbers is ready to issue. -/
lemma isReady_wideAuthority : wideAuthority.IsReady request profile token.signingKey now where
  publicKey := ⟨_, rfl⟩
  algorithm := ⟨_, rfl⟩
  window := exists_of_isOk (by decide)
  subject := exists_of_isOk (by decide +kernel)
  altNames := exists_of_isOk (by decide)
  issuer := exists_of_isOk (by decide +kernel)

/-- The small authority makes numbers of sixteen octets from what is drawn and has one in its certificate; it
would issue none if it asked for longer ones. -/
theorem serials_have_width_sample :
    (SerialNumber.draw 16 (List.replicate 16 255)).IsDrawn 16 (List.replicate 16 255) ∧
    (∃ cert c, authority.issue request profile token.signingKey now [1, 2, 3] = .ok cert ∧
      Certificate.decode? cert.der 0 = some c ∧ c.tbs.serial.content.length = 16) ∧
    (∃ details, wideAuthority.validate = .error (.invalidProfile details)) ∧
    wideAuthority.issue request profile token.signingKey now [1, 2, 3] =
      .error (.invalidProfile "serial width 21 outside 8..=20") := by
  obtain ⟨-, hdrawn, hauthority⟩ := Authority.serials_have_width 16
  obtain ⟨-, -, hwide⟩ := Authority.serials_have_width 21
  obtain ⟨hvalidate, hissue⟩ := (hwide wideAuthority rfl).2 (by decide)
  obtain ⟨cert, hcert, -⟩ := exists_issue
  obtain ⟨c, hc, -, hlength⟩ := (hauthority authority rfl).1 request profile token.signingKey now [1, 2, 3] cert hcert
  exact ⟨(hdrawn (by decide) (by decide) _ rfl).1, ⟨cert, c, hcert, hc, hlength⟩, hvalidate,
    hissue request profile token.signingKey now [1, 2, 3] isReady_wideAuthority⟩

end Sample

end CertAuthority
