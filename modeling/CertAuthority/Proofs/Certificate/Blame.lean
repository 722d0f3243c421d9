import CertAuthority.Proofs.Certificate.Run
import CertAuthority.Proofs.RevocationList.Run

/-!
# Which errors come before verification

Putting a certificate or a revocation list together fails for many reasons, but what was signed is to blame
for none of them: only verification reports that, and plugins may report whatever they like
(`Authority.prepareCertificate_failsOnly`, `Authority.prepareRevocationList_failsOnly`).
-/

namespace CertAuthority

/-- The error does not say that what was signed does not verify. -/
def Error.NotIntegrity : Error → Prop
  | integrity _ => False
  | _ => True

/-- An error that does not come from verification: no integrity error, unless a plugin gives it. -/
def Error.IsEarlier (request : Request) (ca : Authority) (p : ResolvedProfile) (e : Error) : Prop :=
  e.NotIntegrity ∨ ∃ plugin ∈ p.plugins, plugin.value request ca p.profile = .error e

/-- What fails with no integrity error fails with earlier errors only, whatever the plugins do. -/
lemma FailsOnly.isEarlier {α : Type} {x : Except Error α} {request : Request} {ca : Authority}
    {p : ResolvedProfile} (h : FailsOnly Error.NotIntegrity x) :
    FailsOnly (Error.IsEarlier request ca p) x :=
  h.mono fun _ => .inl

/-- A malformed text of a configuration is no integrity error. -/
lemma ParsedProfile.underHeading_failsOnly {α : Type} {heading : String} {r : Except ParseError α} :
    FailsOnly Error.NotIntegrity (underHeading heading r) :=
  .mapError r fun _ => trivial

/-- The statements of qualified certificates fail with no integrity error. -/
lemma QcStatement.statements_failsOnly {qc : QcSettings} {parsed : ParsedProfile}
    {encoding : NameEncoding} : FailsOnly Error.NotIntegrity (statements qc parsed encoding) := by
  have hsyntax : FailsOnly Error.NotIntegrity (syntaxStatement qc parsed encoding) := by
    unfold syntaxStatement
    simp only
    split
    · exact .ok _
    · exact .bind ParsedProfile.underHeading_failsOnly.map fun _ _ => .ok _
  have hlimit : FailsOnly Error.NotIntegrity (limitStatement qc) :=
    .ite (.ite (.ok _) (.error trivial)) (.ok [])
  exact .bind hsyntax fun _ _ => .bind hlimit fun _ _ => .ok _

/-- An extension that comes twice is no integrity error. -/
lemma Extension.append_failsOnly {es : List Extension} {e : Extension} :
    FailsOnly Error.NotIntegrity (append es e) :=
  .ite (.error trivial) (.ok _)

namespace ExtensionContext

variable {c : ExtensionContext}

/-- A malformed text of a request is no integrity error. -/
lemma underHeading_failsOnly {α : Type} {heading : String} {r : Except ParseError α} :
    FailsOnly Error.NotIntegrity (underHeading heading r) :=
  .mapError r fun _ => trivial

/-- A computation that may be off fails as it does where it is on. -/
lemma whenever_failsOnly {P : Error → Prop} {condition : Bool} {e : Except Error Extension}
    (h : FailsOnly P e) : FailsOnly P (whenever condition e) :=
  .ite h.map (.ok none)

/-- A place that is not ASCII is no integrity error. -/
lemma asciiPlace_failsOnly {uri : String} : FailsOnly Error.NotIntegrity (asciiPlace uri) :=
  .ite (.ok uri) (.error trivial)

/-- The qualifiers fail with no integrity error, as only a place can make them fail. -/
lemma policyQualifiers_failsOnly : FailsOnly Error.NotIntegrity c.policyQualifiers :=
  .bind asciiPlace_failsOnly fun _ _ => .ok _

/-- Neither the issuers nor the places of revocation lists fail with an integrity error. -/
lemma crlDistributionPoints_failsOnly : FailsOnly Error.NotIntegrity c.crlDistributionPoints := by
  refine .ite ?_ (.ok none)
  refine .bind (.mapM fun _ _ => ParsedProfile.underHeading_failsOnly) fun _ _ => ?_
  refine .bind (.mapM fun _ _ => asciiPlace_failsOnly) fun _ _ => ?_
  exact whenever_failsOnly (.ok _)

/-- Directory attributes that cannot be read are no integrity error. -/
lemma subjectDirectoryAttributes_failsOnly :
    FailsOnly Error.NotIntegrity c.subjectDirectoryAttributes := by
  refine .ite ?_ (.ok none)
  exact .bind underHeading_failsOnly fun _ _ => whenever_failsOnly (.ok _)

/-- A source fails with an error of its plugin if it has one, and blames no signature otherwise. -/
lemma sources_failsOnly {source : Except Error (Option Extension)} (h : source ∈ c.sources) :
    FailsOnly (Error.IsEarlier c.request c.ca c.resolved) source := by
  simp only [sources, List.mem_append, List.mem_cons, List.not_mem_nil, or_false, List.mem_map] at h
  rcases h with (rfl | rfl | rfl | rfl | rfl | rfl | rfl | rfl | rfl | rfl | rfl | rfl) |
    ⟨plugin, hplugin, rfl⟩
  · exact whenever_failsOnly (.ok _)
  · exact whenever_failsOnly (.ok _)
  · exact whenever_failsOnly (.ok _)
  · exact whenever_failsOnly (.ok _)
  · exact whenever_failsOnly (.ok _)
  · exact (whenever_failsOnly (.bind underHeading_failsOnly fun _ _ => .ok _)).isEarlier
  · exact (whenever_failsOnly (.bind policyQualifiers_failsOnly fun _ _ => .ok _)).isEarlier
  · exact crlDistributionPoints_failsOnly.isEarlier
  · exact (whenever_failsOnly (.bind asciiPlace_failsOnly fun _ _ => .ok _)).isEarlier
  · exact (whenever_failsOnly (.bind asciiPlace_failsOnly fun _ _ => .ok _)).isEarlier
  · exact (whenever_failsOnly (.bind QcStatement.statements_failsOnly fun _ _ => .ok _)).isEarlier
  · exact subjectDirectoryAttributes_failsOnly.isEarlier
  · exact .bind (fun e he => .inr ⟨plugin, hplugin, he⟩) fun _ _ => .ok _

/-- Collecting fails as its sources do, or because an extension comes twice, which is no integrity error. -/
lemma collect_failsOnly {P : Error → Prop} {es : List Extension}
    {sources : List (Except Error (Option Extension))} (hP : ∀ e, e.NotIntegrity → P e)
    (h : ∀ source ∈ sources, FailsOnly P source) : FailsOnly P (collect es sources) := by
  induction sources generalizing es with
  | nil => exact .ok es
  | cons source rest ih =>
    have hrest (es : List Extension) : FailsOnly P (collect es rest) :=
      ih fun source hs => h source (List.mem_cons_of_mem _ hs)
    refine .bind (h source List.mem_cons_self) fun given _ => ?_
    cases given with
    | none => exact hrest es
    | some e => exact .bind (Extension.append_failsOnly.mono hP) fun es _ => hrest es

/-- The extensions fail with earlier errors only. -/
lemma resolve_failsOnly :
    FailsOnly (Error.IsEarlier c.request c.ca c.resolved) c.resolve :=
  collect_failsOnly (fun _ => .inl) fun _ => sources_failsOnly

end ExtensionContext

/-- A second without a form is no integrity error. -/
lemma Timestamp.ofSeconds_failsOnly {seconds : Nat} :
    FailsOnly Error.NotIntegrity (ofSeconds seconds) := by
  unfold ofSeconds
  split
  · exact .ok _
  · exact .error trivial

/-- An element that is too long is no integrity error. -/
lemma Der.Tlv.encoded_failsOnly {t : Der.Tlv} : FailsOnly Error.NotIntegrity t.encoded :=
  .ite (.ok _) (.error trivial)

/-- A window that ends too late is no integrity error. -/
lemma Validity.resolve_failsOnly {now : Nat} {request : Request} {profile : Profile}
    {caNotAfter : Option Nat} : FailsOnly Error.NotIntegrity (resolve now request profile caNotAfter) := by
  unfold resolve
  split
  · exact .ok _
  · refine .ite (.error ?_) (.ok _)
    unfold tooLate
    split <;> trivial

namespace Authority

variable {ca : Authority}

/-- The name of an authority, from wherever it comes, fails with no integrity error. -/
lemma issuerName_failsOnly : FailsOnly Error.NotIntegrity ca.issuerName := by
  unfold issuerName
  split
  · exact ParsedProfile.underHeading_failsOnly
  · exact .ok _

/-- All that is done for a certificate before it is signed fails with earlier errors only. -/
lemma prepareCertificate_failsOnly {request : Request} {p : ResolvedProfile} {signerKey : PublicKeyInfo}
    {algorithm : SignatureAlgorithm} {window : Validity} {drawn : Octets} :
    FailsOnly (Error.IsEarlier request ca p)
      (ca.prepareCertificate request p signerKey algorithm window drawn) := by
  have hwidth : FailsOnly Error.NotIntegrity (SerialNumber.checkWidth ca.serialNumberWidth) :=
    .ite (.ok ()) (.error trivial)
  have haltNames : FailsOnly Error.NotIntegrity (subjectAltNames request p) :=
    .bind ExtensionContext.underHeading_failsOnly fun _ _ => .ok _
  refine .bind ExtensionContext.underHeading_failsOnly.isEarlier fun _ _ => ?_
  refine .bind haltNames.isEarlier fun _ _ => ?_
  refine .bind issuerName_failsOnly.isEarlier fun _ _ => ?_
  refine .bind hwidth.isEarlier fun _ _ => ?_
  refine .bind ExtensionContext.resolve_failsOnly fun _ _ => ?_
  refine .bind Timestamp.ofSeconds_failsOnly.isEarlier fun _ _ => ?_
  exact .bind Timestamp.ofSeconds_failsOnly.isEarlier fun _ _ => .ok _

/-- All that is done for a revocation list before it is signed fails with no integrity error. -/
lemma prepareRevocationList_failsOnly {entries : List RevocationEntry} {number : Nat}
    {signerKey : PublicKeyInfo} {algorithm : SignatureAlgorithm} {now next : Nat} :
    FailsOnly Error.NotIntegrity
      (ca.prepareRevocationList entries number signerKey algorithm now next) := by
  have hentry (entry : RevocationEntry) : FailsOnly Error.NotIntegrity entry.revoked :=
    .bind Timestamp.ofSeconds_failsOnly fun _ _ => .ok _
  refine .bind (.mapM fun entry _ => hentry entry) fun _ _ => ?_
  refine .bind issuerName_failsOnly fun _ _ => ?_
  refine .bind Timestamp.ofSeconds_failsOnly fun _ _ => ?_
  exact .bind Timestamp.ofSeconds_failsOnly fun _ _ => .ok _

end Authority

namespace SoftToken

variable {t : SoftToken} {purpose : Purpose}

/-- A key that cannot be used is no integrity error. -/
lemma usable_failsOnly : FailsOnly Error.NotIntegrity (t.usable purpose) := by
  unfold usable
  split
  · split
    · exact .ok _
    · exact .error trivial
  · exact .error trivial

/-- A token does not refuse its public key with an integrity error. -/
lemma publicKey_failsOnly : FailsOnly Error.NotIntegrity (t.signingKey.publicKey purpose) :=
  .bind usable_failsOnly fun _ _ => .ok _

/-- A token does not refuse its algorithm with an integrity error. -/
lemma algorithm_failsOnly : FailsOnly Error.NotIntegrity (t.signingKey.algorithm purpose) :=
  .bind usable_failsOnly fun _ _ => .ok _

/-- A token does not refuse to sign with an integrity error. -/
lemma sign_failsOnly {message : Octets} :
    FailsOnly Error.NotIntegrity (t.signingKey.sign purpose message) :=
  .bind usable_failsOnly fun _ _ => .mapError _ fun _ => trivial

end SoftToken

end CertAuthority
