import CertAuthority.Der.Field
import CertAuthority.Proofs.Der.Tlv

/-!
# Optional fields are taken as they were put

A field that may be missing stands in front of fields with greater numbers or without one, so taking
it finds it exactly if it is there and leaves the others (`take_toList`).
-/

namespace CertAuthority.Der.Field

/-- Only the tag of an element says whether it goes before a field. -/
lemma isBefore_eq (n : UInt8) (t : Tlv) : isBefore n t = isBefore n ⟨t.tag, []⟩ :=
  rfl

/-- Only the tag of an element says whether it is a field. -/
lemma isNumbered_eq (n : UInt8) (t : Tlv) : isNumbered n t = isNumbered n ⟨t.tag, []⟩ :=
  rfl

/-- An element that comes after the field with a number: it neither is that field nor goes before
it. -/
def IsAfter (n : UInt8) (t : Tlv) : Prop :=
  isBefore n t = false ∧ isNumbered n t = false

/-- The tag of an element says whether it comes after a field. -/
lemma isAfter_of_tag (tag : UInt8) {n : UInt8} {t : Tlv} (ht : t.tag = tag)
    (hb : isBefore n ⟨tag, []⟩ = false) (hn : isNumbered n ⟨tag, []⟩ = false) : IsAfter n t := by
  refine ⟨?_, ?_⟩
  · rwa [isBefore_eq, ht]
  · rwa [isNumbered_eq, ht]

/-- From elements that come after a field nothing is taken. -/
lemma take_of_isAfter {n : UInt8} {ts : List Tlv} (h : ∀ t ∈ ts.head?, IsAfter n t) :
    take n ts = (none, ts) := by
  cases ts with
  | nil => rfl
  | cons t ts =>
    obtain ⟨hb, hn⟩ := h t rfl
    simp [take, hb, hn]

/-- A field is taken exactly if it is there. Its tag decides that it is that field. -/
lemma take_append {n tag : UInt8} {o : Option Tlv} {ts : List Tlv} (ho : ∀ t ∈ o, t.tag = tag)
    (hb : isBefore n ⟨tag, []⟩ = false) (hn : isNumbered n ⟨tag, []⟩ = true)
    (h : ∀ t ∈ ts.head?, IsAfter n t) : take n (o.toList ++ ts) = (o, ts) := by
  cases o with
  | none => exact take_of_isAfter h
  | some t =>
    have hbt : isBefore n t = false := by rwa [isBefore_eq, ho t rfl]
    have hnt : isNumbered n t = true := by rwa [isNumbered_eq, ho t rfl]
    simp [take, hbt, hnt]

/-- A field that holds a value is taken exactly if it is there. -/
lemma take_toList {α : Type} {n tag : UInt8} {f : α → Tlv} {ts : List Tlv} (o : Option α)
    (hf : ∀ a, (f a).tag = tag) (hb : isBefore n ⟨tag, []⟩ = false)
    (hn : isNumbered n ⟨tag, []⟩ = true) (h : ∀ t ∈ ts.head?, IsAfter n t) :
    take n (o.toList.map f ++ ts) = (o.map f, ts) := by
  rw [← Option.toList_map]
  refine take_append (fun t ht => ?_) hb hn h
  obtain ⟨a, -, rfl⟩ := Option.map_eq_some_iff.1 ht
  exact hf a

/-- A field is read exactly if each thing that was put there is. -/
lemma optional_map_eq_some_iff {α : Type} {f : α → Tlv} {read? : Tlv → Option α} {P : α → Prop}
    {o p : Option α} (h : ∀ a ∈ o, ∀ b, read? (f a) = some b ↔ b = a ∧ P a) :
    optional read? (o.map f) = some p ↔ p = o ∧ ∀ a ∈ o, P a := by
  cases o with
  | none => simp [optional, eq_comm]
  | some a =>
    simp only [Option.map_some, optional, Option.map_eq_some_iff, h a rfl, Option.mem_def,
      Option.some.injEq, forall_eq']
    constructor
    · rintro ⟨b, ⟨rfl, hb⟩, rfl⟩
      exact ⟨rfl, hb⟩
    · rintro ⟨rfl, hb⟩
      exact ⟨a, ⟨rfl, hb⟩, rfl⟩

end CertAuthority.Der.Field
