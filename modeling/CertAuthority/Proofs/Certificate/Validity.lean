import Mathlib.Algebra.Group.Nat.Defs
import Mathlib.Tactic.Common
import CertAuthority.Certificate.Validity
import CertAuthority.Oid.Known

/-!
# The validity of a certificate

Which validity a certificate gets is said once, in `Validity.resolve_spec`: when the authority refuses
and whom it blames, and which seconds it chooses otherwise. Sums and products that are clipped at the
largest 64-bit word are those of words that saturate (`toNat_satAdd`, `toNat_satMul`, `toNat_satSub`),
so nothing wraps.
-/

namespace CertAuthority

namespace Word

/-- The difference of two times, but never below zero. -/
def satSub (a b : UInt64) : UInt64 :=
  if a < b then 0 else a - b

/-- The sum of two words, or the largest word where the sum has wrapped below a summand. -/
def satAdd (a b : UInt64) : UInt64 :=
  if a + b < a then 0xFFFFFFFFFFFFFFFF else a + b

/-- The product of two words, or the largest word where the product is none. -/
def satMul (a b : UInt64) : UInt64 :=
  if a.toNat * b.toNat < 2 ^ 64 then a * b else 0xFFFFFFFFFFFFFFFF

/-- The difference of words is that of numbers, which is never negative. -/
lemma toNat_satSub (a b : UInt64) : (satSub a b).toNat = a.toNat - b.toNat := by
  unfold satSub
  split
  · rename_i h
    rw [UInt64.lt_iff_toNat_lt] at h
    simp only [UInt64.toNat_zero]
    omega
  · rename_i h
    rw [UInt64.lt_iff_toNat_lt] at h
    exact UInt64.toNat_sub_of_le _ _ (UInt64.le_iff_toNat_le.2 (by omega))

/-- The sum of words is that of numbers, clipped at the largest word. -/
lemma toNat_satAdd (a b : UInt64) : (satAdd a b).toNat = min (a.toNat + b.toNat) (2 ^ 64 - 1) := by
  have ha := a.toNat_lt
  have hb := b.toNat_lt
  have hs : (a + b).toNat = (a.toNat + b.toNat) % 2 ^ 64 := UInt64.toNat_add a b
  unfold satAdd
  split
  · rename_i h
    rw [UInt64.lt_iff_toNat_lt, hs] at h
    have hm : (0xFFFFFFFFFFFFFFFF : UInt64).toNat = 2 ^ 64 - 1 := rfl
    omega
  · rename_i h
    rw [UInt64.lt_iff_toNat_lt, hs] at h
    omega

/-- The product of words is that of numbers, clipped at the largest word. -/
lemma toNat_satMul (a b : UInt64) : (satMul a b).toNat = min (a.toNat * b.toNat) (2 ^ 64 - 1) := by
  unfold satMul
  split
  · rename_i h
    rw [UInt64.toNat_mul, Nat.mod_eq_of_lt h]
    omega
  · rename_i h
    have hm : (0xFFFFFFFFFFFFFFFF : UInt64).toNat = 2 ^ 64 - 1 := rfl
    omega

end Word

namespace Validity

/-- Clipping a product before the sum makes no difference to the clipped sum. -/
lemma min_add_min (a b m : Nat) : min (a + min b m) m = min (a + b) m := by
  omega

/-- The wanted end, clipped once. -/
lemma wantedEnd_eq (now : Nat) (request : Request) (profile : Profile) :
    wantedEnd now request profile = (permitted profile request.notAfter).getD
      (min (now + profile.validityDays * 86400) (2 ^ 64 - 1)) := by
  have hm : maxTime = 2 ^ 64 - 1 := rfl
  rw [wantedEnd, min_add_min, hm, secondsPerDay]

/-- What is permitted is a wish. -/
lemma mem_of_permitted {profile : Profile} {wish : Option Nat} {n : Nat}
    (h : permitted profile wish = some n) : n ∈ wish := by
  unfold permitted at h
  split at h
  · exact h
  · cases h

/-- A start that was chosen by a wish of 64 bits or from a time of 64 bits has 64 bits. -/
lemma start_lt {now : Nat} {request : Request} {profile : Profile} (hn : now < 2 ^ 64)
    (hw : ∀ t ∈ request.notBefore, t < 2 ^ 64) : start now request profile < 2 ^ 64 := by
  unfold start
  cases h : permitted profile request.notBefore with
  | none =>
    simp only [Option.getD_none]
    omega
  | some t => exact hw t (mem_of_permitted h)

/-- A wanted end that was chosen by a wish of 64 bits or by the profile has 64 bits. -/
lemma wantedEnd_lt {now : Nat} {request : Request} {profile : Profile}
    (hw : ∀ t ∈ request.notAfter, t < 2 ^ 64) : wantedEnd now request profile < 2 ^ 64 := by
  rw [wantedEnd_eq]
  cases h : permitted profile request.notAfter with
  | none =>
    rw [Option.getD_none]
    exact Nat.lt_of_le_of_lt (Nat.min_le_right _ _) (by decide)
  | some t => exact hw t (mem_of_permitted h)

/-- Under a limit a certificate is refused exactly if it would not start before the limit. -/
lemma resolve_of_limit {now : Nat} {request : Request} {profile : Profile} {l : Nat}
    (hk : profile.kind ≠ .rootCa) :
    resolve now request profile (some l) =
      if l ≤ start now request profile then
        .error (tooLate request profile (start now request profile) l)
      else .ok ⟨start now request profile,
        max (min (wantedEnd now request profile) l) (start now request profile)⟩ := by
  simp only [resolve, limit, if_neg hk]

/-- Without a limit a certificate is never refused. -/
lemma resolve_of_no_limit {now : Nat} {request : Request} {profile : Profile} {signer : Option Nat}
    (h : profile.kind = .rootCa ∨ signer = none) :
    resolve now request profile signer = .ok ⟨start now request profile,
      max (wantedEnd now request profile) (start now request profile)⟩ := by
  have hl : limit profile signer = none := by
    unfold limit
    cases h with
    | inl hk => rw [if_pos hk]
    | inr hs =>
      rw [hs]
      split <;> rfl
  simp only [resolve, hl]

/-- The validity of a certificate starts where it should and ends no later than wanted, unless it would
end before it starts. -/
lemma le_of_resolve {now : Nat} {request : Request} {profile : Profile} {signer : Option Nat}
    {v : Validity} (h : resolve now request profile signer = .ok v) :
    v.notBefore = start now request profile ∧
      v.notAfter ≤ max (wantedEnd now request profile) (start now request profile) := by
  unfold resolve at h
  simp only at h
  split at h
  · cases h
    exact ⟨rfl, Nat.le_refl _⟩
  · split at h
    · cases h
    · cases h
      refine ⟨rfl, Nat.max_le.2 ⟨?_, Nat.le_max_right _ _⟩⟩
      exact Nat.le_trans (Nat.min_le_left _ _) (Nat.le_max_left _ _)

/-- The validity of a certificate. A certificate that is not a root starts before the certificate of
the signer ends, or is refused: the request is blamed if it chose the start, else the certificate of
the signer. It does not end after the certificate of the signer. A root, or a certificate without a
signer's, is never refused and ends no sooner than wanted. Times of 64 bits lead to times of 64 bits;
what is computed from them is what words compute that saturate. -/
theorem resolve_spec (now : Nat) (request : Request) (profile : Profile) (signer : Option Nat) :
    let wish (w : Option Nat) : Option Nat := if profile.allowValidityOverride then w else none
    let nb := (wish request.notBefore).getD (now - 600)
    let want :=
      (wish request.notAfter).getD (min (now + profile.validityDays * 86400) (2 ^ 64 - 1))
    let r := resolve now request profile signer
    (∀ l, profile.kind ≠ .rootCa → signer = some l →
      ((∃ e, r = .error e) ↔ l ≤ nb) ∧
      (∀ e, r = .error e →
        let details := "notBefore " ++ toString nb ++ " is not before the CA certificate expiry " ++
          toString l
        e = if (wish request.notBefore).isSome then .invalidSubject details
          else .invalidCaCertificate details) ∧
      ∀ v, r = .ok v → v.notBefore = nb ∧ v.notBefore < l ∧ v.notAfter = max (min want l) nb ∧
        v.notBefore ≤ v.notAfter ∧ v.notAfter ≤ l) ∧
    (profile.kind = .rootCa ∨ signer = none →
      ∃ v, r = .ok v ∧ v.notBefore = nb ∧ v.notAfter = max want nb ∧ want ≤ v.notAfter) ∧
    (now < 2 ^ 64 → (∀ t ∈ request.notBefore, t < 2 ^ 64) → (∀ t ∈ request.notAfter, t < 2 ^ 64) →
      ∀ v, r = .ok v → v.notBefore < 2 ^ 64 ∧ v.notAfter < 2 ^ 64) ∧
    ∀ w d : UInt64, now = w.toNat → profile.validityDays = d.toNat →
      now - 600 = (Word.satSub w 600).toNat ∧
      min (now + profile.validityDays * 86400) (2 ^ 64 - 1) =
        (Word.satAdd w (Word.satMul d 86400)).toNat := by
  intro wish nb want r
  have hnb : start now request profile = nb := rfl
  have hwant : wantedEnd now request profile = want := wantedEnd_eq now request profile
  refine ⟨?_, ?_, ?_, ?_⟩
  · intro l hk hl
    -- under a limit everything is read off one equation
    have hr : r = if l ≤ nb then .error (tooLate request profile nb l)
        else .ok ⟨nb, max (min want l) nb⟩ := by
      rw [← hnb, ← hwant, ← resolve_of_limit hk, ← hl]
    refine ⟨?_, ?_, ?_⟩
    · rw [hr]
      split
      · rename_i h
        exact ⟨fun _ => h, fun _ => ⟨_, rfl⟩⟩
      · rename_i h
        exact ⟨fun ⟨_, he⟩ => (nomatch he), fun hle => absurd hle h⟩
    · intro e he details
      rw [hr] at he
      split at he
      · cases he
        have hp : permitted profile request.notBefore = wish request.notBefore := rfl
        rw [tooLate, hp]
        cases wish request.notBefore <;> rfl
      · cases he
    · intro v hv
      rw [hr] at hv
      split at hv
      · cases hv
      · cases hv
        refine ⟨rfl, ?_, rfl, ?_, ?_⟩
        · exact Nat.lt_of_not_le ‹_›
        · exact Nat.le_max_right _ _
        · simp only
          omega
  · intro h
    refine ⟨⟨nb, max want nb⟩, ?_, rfl, rfl, Nat.le_max_left _ _⟩
    rw [← hnb, ← hwant]
    exact resolve_of_no_limit h
  · intro hn hb ha v hv
    have h1 : start now request profile < 2 ^ 64 := start_lt hn hb
    have h2 : wantedEnd now request profile < 2 ^ 64 := wantedEnd_lt ha
    obtain ⟨e1, e2⟩ := le_of_resolve hv
    omega
  · intro w d hw hd
    rw [Word.toNat_satSub, Word.toNat_satAdd, Word.toNat_satMul, hw, hd]
    exact ⟨rfl, (min_add_min _ _ _).symm⟩

/-- A request without wishes. -/
def plainRequest : Request where
  subjectDn := "CN=a"
  publicKey := ⟨.withNull Oid.rsaEncryption, .ofOctets []⟩

/-- Under a limit a request without wishes is refused from the limit on, and before it gets at most the
limit. -/
theorem resolve_plainRequest :
    Profile.endUser.kind ≠ .rootCa ∧
      (∃ e, resolve 1750000000 plainRequest Profile.endUser (some 1749999400) = .error e) ∧
      ∃ v, resolve 1750000000 plainRequest Profile.endUser (some 1760000000) = .ok v ∧
        v.notAfter = 1760000000 := by
  have hk : Profile.endUser.kind ≠ .rootCa := by decide
  refine ⟨hk, ?_, ⟨1749999400, 1760000000⟩, rfl, ?_⟩
  · exact ((resolve_spec 1750000000 plainRequest Profile.endUser (some 1749999400)).1 _ hk rfl).1.2
      (by decide)
  · exact (((resolve_spec 1750000000 plainRequest Profile.endUser (some 1760000000)).1 _ hk rfl).2.2
      ⟨1749999400, 1760000000⟩ rfl).2.2.1

end Validity

end CertAuthority
