import CertAuthority.Proofs.Certificate.Run
import CertAuthority.Proofs.Rsa.Transport
import CertAuthority.Proofs.SoftToken
import CertAuthority.Recovery.Wrapped
import CertAuthority.RevocationList.Issue

/-!
# Histories of a soft token

A soft token is made from an empty one by installing keys and by switching it off and on. What it answers for
a purpose is decided by the last switch and by the last key that was installed for that purpose
(`observed_of_reach`). Every operation of the authority serves one purpose: it depends on what the token
answers for that purpose only (`Operation.run_eq_of_agrees`), and asks for its public key before anything
else (`Operation.run_eq_error`). So the purposes are separated in every history (`purposes_separated`).
-/

namespace CertAuthority

/-! ### Operations -/

/-- What the authority does with the key of a purpose, with all that it is given besides the key, and the
type of what it gives. -/
inductive Operation : Purpose → Type → Type where
  | issue (ca : Authority) (request : Request) (p : ResolvedProfile) (now : Nat) (drawn : Octets) :
    Operation .certSign IssuedCertificate
  | issueRevocationList (ca : Authority) (entries : List RevocationEntry) (number now : Nat) :
    Operation .crlSign IssuedRevocationList
  | wrap (pair : KeyPair) (draw : Recovery.Draw) :
    Operation .keyEncrypt Octets
  | unwrap (wrapped : Octets) :
    Operation .keyEncrypt KeyPair

/-- Keys that answer alike for a purpose. -/
structure SigningKey.Agrees (purpose : Purpose) (key key' : SigningKey) : Prop where
  sign : key.sign purpose = key'.sign purpose
  publicKey : key.publicKey purpose = key'.publicKey purpose
  decrypt : key.decrypt purpose = key'.decrypt purpose
  algorithm : key.algorithm purpose = key'.algorithm purpose

namespace Operation

variable {purpose : Purpose} {α : Type}

/-- What an operation gives with a key. -/
def run : Operation purpose α → SigningKey → Except Error α
  | issue ca request p now drawn, key => ca.issue request p key now drawn
  | issueRevocationList ca entries number now, key => ca.issueRevocationList entries number key now
  | wrap pair draw, key => pair.wrap key draw
  | unwrap wrapped, key => KeyPair.unwrap wrapped key

/-- An operation asks for nothing but its own purpose. -/
lemma run_eq_of_agrees (op : Operation purpose α) {key key' : SigningKey} (h : key.Agrees purpose key') :
    op.run key = op.run key' := by
  cases op with
  | issue => rw [run, run, Authority.issue, Authority.issue, h.publicKey, h.algorithm, h.sign]
  | issueRevocationList =>
    rw [run, run, Authority.issueRevocationList, Authority.issueRevocationList, h.publicKey, h.algorithm, h.sign]
  | wrap => rw [run, run, KeyPair.wrap, KeyPair.wrap, h.publicKey]
  | unwrap =>
    have hcontent : Recovery.contentKeyOf key = Recovery.contentKeyOf key' := by
      funext k
      rw [Recovery.contentKeyOf, Recovery.contentKeyOf, h.decrypt]
    rw [run, run, KeyPair.unwrap, KeyPair.unwrap, h.publicKey, hcontent]

/-- An operation fails as the question for the public key does, whatever else is wrong. -/
lemma run_eq_error (op : Operation purpose α) {key : SigningKey} {e : Error}
    (h : key.publicKey purpose = .error e) : op.run key = .error e := by
  cases op with
  | issue => rw [run, Authority.issue, h]; rfl
  | issueRevocationList => rw [run, Authority.issueRevocationList, h]; rfl
  | wrap => rw [run, KeyPair.wrap, h]; rfl
  | unwrap => rw [run, KeyPair.unwrap, h]; rfl

end Operation

namespace SoftToken

variable {t u : SoftToken} {purpose : Purpose}

/-- Tokens that have the same key for a purpose, and are both on or off line, answer alike for it. -/
lemma agrees_signingKey (hactive : t.active = u.active) (hkey : t.keys purpose = u.keys purpose) :
    SigningKey.Agrees purpose t.signingKey u.signingKey := by
  have husable : t.usable purpose = u.usable purpose := by
    rw [usable, usable, hactive, hkey]
  constructor <;> simp only [signingKey, husable]

/-- A token that is off line or has no key for a purpose says so. -/
lemma publicKey_eq_error (h : t.active = false ∨ t.keys purpose = none) :
    t.signingKey.publicKey purpose = .error (.tokenOffline purpose) := by
  have husable : t.usable purpose = .error (.tokenOffline purpose) := by
    rw [usable]
    rcases h with hactive | hkey
    · rw [hactive, if_neg Bool.false_ne_true]
    · rw [hkey]
      split <;> rfl
  simp only [signingKey, husable]
  rfl

/-! ### Histories -/

/-- What may be done to a token. -/
inductive Action where
  | install (purpose : Purpose) (key : Rsa.PrivateKey) (algorithm : SignatureAlgorithm)
  | installPem (purpose : Purpose) (text : Octets) (algorithm : SignatureAlgorithm)
  | activate
  | deactivate

namespace Action

/-- What an action makes of a token. -/
def perform (t : SoftToken) : Action → Except Error SoftToken
  | install purpose key algorithm => .ok (t.install purpose key algorithm)
  | installPem purpose text algorithm => t.installPem purpose text algorithm
  | activate => .ok t.activate
  | deactivate => .ok t.deactivate

/-- The key that an action installs for a purpose. -/
def installed? (purpose : Purpose) : Action → Option SoftKey
  | install p key algorithm => if p = purpose then some ⟨key, algorithm⟩ else none
  | installPem p text algorithm =>
    if p = purpose then (Rsa.PrivateKey.ofPem text).toOption.map (⟨·, algorithm⟩) else none
  | activate | deactivate => none

/-- Whether an action switches the token on or off. -/
def switched? : Action → Option Bool
  | activate => some true
  | deactivate => some false
  | install .. | installPem .. => none

/-- An action switches the token and installs keys, and changes nothing else. -/
lemma observed_of_perform {a : Action} (h : a.perform t = .ok u) :
    u.active = a.switched?.getD t.active ∧ ∀ p, u.keys p = (a.installed? p).or (t.keys p) := by
  cases a with
  | install q key algorithm =>
    cases h
    refine ⟨rfl, fun p => ?_⟩
    simp only [SoftToken.install, installed?, eq_comm (a := p)]
    split <;> rfl
  | installPem q text algorithm =>
    obtain ⟨key, hkey, h⟩ := bind_eq_ok_iff.1 h
    cases h
    refine ⟨rfl, fun p => ?_⟩
    simp only [SoftToken.install, installed?, mapError_eq_ok_iff.1 hkey, eq_comm (a := p)]
    split <;> rfl
  | activate =>
    cases h
    exact ⟨rfl, fun p => rfl⟩
  | deactivate =>
    cases h
    exact ⟨rfl, fun p => rfl⟩

end Action

/-- The token that actions make of an empty one, unless one of them fails. -/
def reach (as : List Action) : Except Error SoftToken :=
  as.foldlM Action.perform {}

/-- What the last action that does such a thing does. -/
def last? {α : Type} (f : Action → Option α) (as : List Action) : Option α :=
  as.reverse.findSome? f

/-- A token is on line from the start and until it is switched off. -/
def isOnline (as : List Action) : Bool :=
  (last? Action.switched? as).getD true

/-- The key that was last installed for a purpose. -/
def lastKey? (purpose : Purpose) (as : List Action) : Option SoftKey :=
  last? (Action.installed? purpose) as

/-- The last action of a kind is the first one if there is none after it. -/
lemma last?_cons {α : Type} (f : Action → Option α) (a : Action) (as : List Action) :
    last? f (a :: as) = (last? f as).or (f a) := by
  rw [last?, List.reverse_cons, List.findSome?_append, last?]
  simp

/-- What actions make of a token depends on the token only as far as they leave it alone. -/
lemma observed_of_foldlM {as : List Action} (h : as.foldlM Action.perform t = .ok u) :
    u.active = (last? Action.switched? as).getD t.active ∧
      ∀ p, u.keys p = (last? (Action.installed? p) as).or (t.keys p) := by
  -- Later actions overrule earlier ones, so the first action counts only if the rest leaves the token alone.
  induction as generalizing t with
  | nil =>
    cases h
    exact ⟨rfl, fun p => rfl⟩
  | cons a as ih =>
    rw [List.foldlM_cons] at h
    obtain ⟨v, hstep, hrest⟩ := bind_eq_ok_iff.1 h
    obtain ⟨hactive, hkeys⟩ := Action.observed_of_perform hstep
    obtain ⟨hactive', hkeys'⟩ := ih hrest
    refine ⟨?_, fun p => ?_⟩
    · rw [hactive', hactive, last?_cons]
      cases last? Action.switched? as <;> rfl
    · rw [hkeys', hkeys, last?_cons, Option.or_assoc]

/-- The state of a token is what its history says. -/
lemma observed_of_reach {as : List Action} (h : reach as = .ok t) :
    t.active = isOnline as ∧ ∀ p, t.keys p = lastKey? p as := by
  obtain ⟨hactive, hkeys⟩ := observed_of_foldlM h
  exact ⟨hactive, fun p => (hkeys p).trans Option.or_none⟩

/-- There is no last key exactly if none was installed. -/
lemma lastKey?_eq_none_iff {as : List Action} :
    lastKey? purpose as = none ↔ ∀ a ∈ as, a.installed? purpose = none := by
  simp [lastKey?, last?]

/-- Switching a token off and on again makes what switching it on makes. -/
lemma reach_append_switches (as : List Action) :
    reach (as ++ [.deactivate, .activate]) = reach (as ++ [.activate]) := by
  rw [reach, List.foldlM_append, reach, List.foldlM_append]
  rfl

/-- A token that is on line is the same after it was switched off and on. -/
lemma reach_append_switches_of_isOnline {as : List Action} (h : reach as = .ok t)
    (honline : isOnline as = true) : reach (as ++ [.deactivate, .activate]) = .ok t := by
  have hactive : t.active = true := (observed_of_reach h).1.trans honline
  have hsame : t.activate = t := by
    rw [activate, ← hactive]
  rw [reach_append_switches, reach, List.foldlM_append, ← reach, h, ok_bind]
  exact congrArg Except.ok hsame

/-- The purposes of a token are separated: what an operation gives depends on the last switch and on the last
key that was installed for its purpose only. Off line and without such a key it fails with the name of the
purpose, and off line is where a token comes back from as it was. -/
theorem purposes_separated {as bs : List Action} {α : Type} (op : Operation purpose α)
    (ht : reach as = .ok t) (hu : reach bs = .ok u) :
    (isOnline as = isOnline bs → lastKey? purpose as = lastKey? purpose bs →
      op.run t.signingKey = op.run u.signingKey) ∧
    (isOnline as = false ∨ (∀ a ∈ as, a.installed? purpose = none) →
      op.run t.signingKey = .error (.tokenOffline purpose)) ∧
    reach (as ++ [.deactivate, .activate]) = reach (as ++ [.activate]) ∧
    (isOnline as = true → reach (as ++ [.deactivate, .activate]) = .ok t) := by
  obtain ⟨hactive, hkeys⟩ := observed_of_reach ht
  obtain ⟨hactive', hkeys'⟩ := observed_of_reach hu
  refine ⟨fun honline hkey => ?_, fun hoffline => ?_, reach_append_switches as,
    reach_append_switches_of_isOnline ht⟩
  · refine op.run_eq_of_agrees (agrees_signingKey ?_ ?_)
    · rw [hactive, hactive', honline]
    · rw [hkeys, hkeys', hkey]
  · refine op.run_eq_error (publicKey_eq_error ?_)
    rwa [hactive, hkeys, lastKey?_eq_none_iff]

end SoftToken

namespace Sample

open SoftToken (Action)

/-- A key for certificates and nothing else. -/
def plainHistory : List Action :=
  [.install .certSign privateKey .sha256WithRsa]

/-- The same key after another one, on a token that was off line and has a key for transport, too. -/
def busyHistory : List Action :=
  [.install .certSign transportKey .sha512WithRsa, .deactivate, .install .keyEncrypt transportKey .sha256WithRsa,
    .install .certSign privateKey .sha256WithRsa, .activate]

end Sample

/-- The two histories make tokens that issue the same certificates, one of which issues no revocation lists.
While a token is off line it does not open what is no wrapped key pair either. -/
theorem SoftToken.sample_separated :
    ∃ t u v, reach Sample.plainHistory = .ok t ∧ reach Sample.busyHistory = .ok u ∧
      reach (Sample.busyHistory ++ [.deactivate]) = .ok v ∧
      Sample.authority.issue Sample.request Sample.profile t.signingKey Sample.now [1, 2, 3] =
        Sample.authority.issue Sample.request Sample.profile u.signingKey Sample.now [1, 2, 3] ∧
      Sample.authority.issueRevocationList [] 1 t.signingKey Sample.now = .error (.tokenOffline .crlSign) ∧
      KeyPair.unwrap [] v.signingKey = .error (.tokenOffline .keyEncrypt) ∧
      reach (Sample.plainHistory ++ [.deactivate, .activate]) = .ok t := by
  obtain ⟨t, ht⟩ : ∃ t, reach Sample.plainHistory = .ok t := ⟨_, rfl⟩
  obtain ⟨u, hu⟩ : ∃ u, reach Sample.busyHistory = .ok u := ⟨_, rfl⟩
  obtain ⟨v, hv⟩ : ∃ v, reach (Sample.busyHistory ++ [.deactivate]) = .ok v := ⟨_, rfl⟩
  have hissue := purposes_separated
    (.issue Sample.authority Sample.request Sample.profile Sample.now [1, 2, 3]) ht hu
  have hkey : lastKey? .certSign Sample.plainHistory = lastKey? .certSign Sample.busyHistory := by
    simp [lastKey?, last?, Sample.plainHistory, Sample.busyHistory, List.findSome?_cons, Action.installed?]
  have honline : isOnline Sample.plainHistory = isOnline Sample.busyHistory := by decide +kernel
  have hlist := purposes_separated (.issueRevocationList Sample.authority [] 1 Sample.now) ht hu
  have hunwrap := purposes_separated (.unwrap []) hv hu
  have hnone : ∀ a ∈ Sample.plainHistory, a.installed? .crlSign = none := by
    simp [Sample.plainHistory, Action.installed?]
  exact ⟨t, u, v, ht, hu, hv, hissue.1 honline hkey, hlist.2.1 (.inr hnone), hunwrap.2.1 (.inl rfl),
    hissue.2.2.2 rfl⟩

end CertAuthority
