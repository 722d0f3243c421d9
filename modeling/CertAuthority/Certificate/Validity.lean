import CertAuthority.Config.Authority
import CertAuthority.Request

/-!
# Validity of certificates

A certificate is valid from a little before it is issued, or from when a request says, for as many
days as its profile says, or until when a request says, but not longer than the certificate of the
authority. Times are numbers of 64 bits; sums and products stop at the largest of them.
-/

namespace CertAuthority

/-- The last second of 64 bits. -/
def maxTime : Nat := 0xFFFFFFFFFFFFFFFF

/-- How much earlier than now certificates are valid, so that slow clocks accept them. -/
def clockSkewMargin : Nat := 600

/-- The seconds of a day. -/
def secondsPerDay : Nat := 86400

/-- The first and the last second of a certificate. -/
structure Validity where
  notBefore : Nat
  notAfter : Nat
deriving DecidableEq, Repr

namespace Validity

/-- What a request wishes, where the profile lets it. -/
def permitted (profile : Profile) (wish : Option Nat) : Option Nat :=
  if profile.allowValidityOverride then wish else none

/-- The first second of a window: the permitted wish, or a little before now. -/
def start (now : Nat) (request : Request) (profile : Profile) : Nat :=
  (permitted profile request.notBefore).getD (now - clockSkewMargin)

/-- The last second before the authority's own certificate is looked at. -/
def wantedEnd (now : Nat) (request : Request) (profile : Profile) : Nat :=
  (permitted profile request.notAfter).getD
    (min (now + min (profile.validityDays * secondsPerDay) maxTime) maxTime)

/-- The end of the certificate that limits this one, if there is one. A root is limited by none. -/
def limit (profile : Profile) (caNotAfter : Option Nat) : Option Nat :=
  if profile.kind = .rootCa then none else caNotAfter

/-- Who is to blame if a certificate would start after the authority's has ended: the request if it
chose the start, else the authority. -/
def tooLate (request : Request) (profile : Profile) (start limit : Nat) : Error :=
  let details :=
    "notBefore " ++ toString start ++ " is not before the CA certificate expiry " ++ toString limit
  match permitted profile request.notBefore with
  | some _ => .invalidSubject details
  | none => .invalidCaCertificate details

/-- The validity of a certificate that is issued now. -/
def resolve (now : Nat) (request : Request) (profile : Profile) (caNotAfter : Option Nat) :
    Except Error Validity :=
  let notBefore := start now request profile
  let wanted := wantedEnd now request profile
  match limit profile caNotAfter with
  | none => .ok ⟨notBefore, max wanted notBefore⟩
  | some l =>
    if l ≤ notBefore then .error (tooLate request profile notBefore l)
    else .ok ⟨notBefore, max (min wanted l) notBefore⟩

end Validity

end CertAuthority
