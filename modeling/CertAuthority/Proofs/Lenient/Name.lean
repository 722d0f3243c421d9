import Mathlib.Algebra.BigOperators.Group.List.Basic
import CertAuthority.Lenient.Value
import CertAuthority.Proofs.Certificate.Parts
import CertAuthority.Proofs.Lenient.Element

/-!
# Where the lenient reader stops in a name

The lenient reader takes relative names off a name for as long as it can, and a relative name has to have
an attribute. A name that was strictly written and whose relative names have attributes is read to its
end (`name?_encode`).
-/

namespace CertAuthority

/-- Every relative name in a name has an attribute. -/
def Name.HasAttributes (n : Name) : Prop :=
  ∀ r ∈ n.rdns, r.attributes ≠ []

namespace Lenient

open Der

/-- The lenient reader takes an element that was written by its number. -/
lemma numbered?_around {tag : UInt8} {ts : List Tlv} {n : Nat} (h : (Tlv.around tag ts).Readable)
    (hn : tag.toNat % 32 = n) (rest : Octets) :
    numbered? n ((Tlv.around tag ts).encode ++ rest) = some (ofTlv (.around tag ts), rest) :=
  numbered?_encode h hn rest

/-- A row of values of which each can be read is read up to its end. -/
lemma many_flatMap {α β : Type} {read? : Octets → Option (α × Octets)} {write : β → Octets}
    {bs : List β} {n : Nat} (hnil : read? [] = none)
    (h : ∀ b ∈ bs, ∀ rest, ∃ a, read? (write b ++ rest) = some (a, rest)) (hn : bs.length ≤ n) :
    (many read? n (bs.flatMap write)).2 = [] := by
  induction bs generalizing n with
  | nil =>
    cases n with
    | zero => rfl
    | succ n => rw [List.flatMap_nil, many, hnil]
  | cons b bs ih =>
    cases n with
    | zero => cases hn
    | succ n =>
      obtain ⟨a, ha⟩ := h b List.mem_cons_self (bs.flatMap write)
      rw [List.flatMap_cons, many, ha]
      exact ih (fun b hb => h b (List.mem_cons_of_mem _ hb)) (Nat.le_of_succ_le_succ hn)

/-- The lenient reader passes over an attribute that was written. -/
lemma attribute?_encode {a : NameAttribute} (h : a.tlv.Readable) (rest : Octets) :
    attribute? (a.tlv.encode ++ rest) = some ((), rest) := by
  have hoid : (Tlv.ofOid a.type).Readable := ⟨Tlv.known_ofOid _, h.fits.of_mem (by simp)⟩
  have hvalue : a.value.tlv.Readable := ⟨Tlv.known_any _, h.fits.of_mem (by simp)⟩
  have hn : numbered? sequenceNumber (a.tlv.encode ++ rest) = some (ofTlv a.tlv, rest) :=
    numbered?_around h rfl rest
  have ho : oid? a.tlv.content = some (a.type.octets, a.value.tlv.encode ++ []) :=
    primitive?_encode Tag.oid hoid rfl rfl rfl _
  simp only [attribute?, inSequence?, hn, content_ofTlv, ho, element?_encode hvalue,
    Option.bind_eq_bind, Option.bind_some]
  rfl

/-- The lenient reader passes over a part of a name that was written, if it has an attribute. -/
lemma rdn?_encode {r : RelativeName} (h : r.tlv.Readable) (hr : r.attributes ≠ []) (rest : Octets) :
    rdn? (r.tlv.encode ++ rest) = some ((), rest) := by
  obtain ⟨a, as, has⟩ := List.exists_cons_of_ne_nil hr
  have ha : a.tlv.Readable := ⟨a.known_tlv, h.fits.of_mem (by simp [has])⟩
  have hc : r.tlv.content = a.tlv.encode ++ (as.map NameAttribute.tlv).flatMap Tlv.encode := by
    rw [RelativeName.tlv, has]
    rfl
  have hn : numbered? setNumber (r.tlv.encode ++ rest) = some (ofTlv r.tlv, rest) :=
    numbered?_around h rfl rest
  simp only [rdn?, hn, content_ofTlv, hc, attribute?_encode ha, Option.bind_eq_bind,
    Option.bind_some]
  rfl

/-- A name whose relative names have attributes is read to its end. -/
lemma name?_encode {n : Name} (h : n.tlv.Readable) (hn : n.HasAttributes) (rest : Octets) :
    name? (n.tlv.encode ++ rest) = some (n.tlv.encode, rest) := by
  have hread : ∀ r ∈ n.rdns, ∀ rest, ∃ u, rdn? (r.tlv.encode ++ rest) = some (u, rest) := by
    intro r hr rest
    have hreadable : r.tlv.Readable := ⟨r.known_tlv, h.fits.of_mem (List.mem_map_of_mem hr)⟩
    exact ⟨(), rdn?_encode hreadable (hn r hr) rest⟩
  have hc : n.tlv.content = n.rdns.flatMap fun r => r.tlv.encode := by
    simp [Name.tlv, Tlv.sequence, List.flatMap_map]
  have hroom : n.rdns.length ≤ n.tlv.content.length := by
    have h := Tlv.length_le_flatMap (n.rdns.map RelativeName.tlv)
    rwa [List.length_map] at h
  have hleft : (many rdn? n.tlv.content.length n.tlv.content).2 = [] := by
    rw [hc] at hroom ⊢
    exact many_flatMap rfl hread hroom
  have hnum : numbered? sequenceNumber (n.tlv.encode ++ rest) = some (ofTlv n.tlv, rest) :=
    numbered?_around h rfl rest
  simp only [name?, hnum, content_ofTlv, hleft, Option.bind_eq_bind, Option.bind_some]
  simp

end Lenient

end CertAuthority
