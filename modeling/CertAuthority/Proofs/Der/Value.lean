import CertAuthority.Der.Field
import CertAuthority.Der.Value
import CertAuthority.Proofs.Der.Tlv

/-!
# Simple values are read as they were written

For each type of `Der/Value` a lemma that its element is read again and one that its tag is known. An
object identifier is read again if it is not too short for the reader; with no lower bound every
identifier is.
-/

namespace CertAuthority.Der

/-- An element of open type is taken as it is. -/
@[simp] lemma Any.ofTlv?_tlv (a : Any) : Any.ofTlv? a.tlv = some a := by
  simp [Any.ofTlv?, a.known]

/-- A value that was read has the form that it was read from. -/
lemma Any.eq_tlv_of_ofTlv? {t : Tlv} {a : Any} (h : Any.ofTlv? t = some a) : t = a.tlv := by
  unfold Any.ofTlv? at h
  split at h
  · cases h
    rfl
  · cases h

/-- If a part is read again under a condition on it and the rest then goes through, the whole is read
again under that condition. -/
lemma bind_eq_some_iff_of_part {α β : Type} {o : Option α} {f : α → Option β} {a : α} {b c : β}
    {P : Prop} (h : ∀ x, o = some x ↔ x = a ∧ P) (hf : f a = some b) :
    o.bind f = some c ↔ c = b ∧ P := by
  rw [Option.bind_eq_some_iff]
  constructor
  · rintro ⟨x, hx, hc⟩
    obtain ⟨rfl, hP⟩ := (h x).1 hx
    rw [hf] at hc
    exact ⟨(Option.some.inj hc).symm, hP⟩
  · rintro ⟨rfl, hP⟩
    exact ⟨a, (h a).2 ⟨rfl, hP⟩, hf⟩

/-- If each written thing is read again under a condition on it, a list of them is read again under
the condition on all of them. -/
lemma mapM_map_eq_some_iff {α β : Type} {write : α → β} {read? : β → Option α} {P : α → Prop}
    {as bs : List α} (h : ∀ a ∈ as, ∀ b, read? (write a) = some b ↔ b = a ∧ P a) :
    (as.map write).mapM read? = some bs ↔ bs = as ∧ ∀ a ∈ as, P a := by
  induction as generalizing bs with
  | nil => simp [eq_comm]
  | cons a as ih =>
    have ha := h a (by simp)
    have has : ∀ cs, (as.map write).mapM read? = some cs ↔ cs = as ∧ ∀ a ∈ as, P a :=
      fun cs => ih fun b hb => h b (by simp [hb])
    simp only [List.map_cons, List.mapM_cons, Option.bind_eq_bind, Option.pure_def,
      Option.bind_eq_some_iff, ha, has, Option.some.injEq, List.mem_cons, forall_eq_or_imp]
    constructor
    · rintro ⟨b, ⟨rfl, hb⟩, bs, ⟨rfl, hbs⟩, rfl⟩
      exact ⟨rfl, hb, hbs⟩
    · rintro ⟨rfl, hb, hbs⟩
      exact ⟨a, ⟨rfl, hb⟩, as, ⟨rfl, hbs⟩, rfl⟩

/-- A list is read as what is shown of its elements, if each of them is. -/
lemma mapM_map_eq_some {α β γ : Type} {write : α → β} {read? : β → Option γ} {shown : α → γ} {as : List α}
    (h : ∀ a ∈ as, read? (write a) = some (shown a)) : (as.map write).mapM read? = some (as.map shown) := by
  induction as with
  | nil => rfl
  | cons a as ih =>
    rw [List.forall_mem_cons] at h
    rw [List.map_cons, List.mapM_cons, h.1, ih h.2]
    rfl

/-- What is read of a list was read of one of its elements. -/
lemma exists_of_mem_mapM {α β : Type} {f : α → Option β} {as : List α} {bs : List β} {b : β}
    (h : as.mapM f = some bs) (hb : b ∈ bs) : ∃ a ∈ as, f a = some b := by
  induction as generalizing bs with
  | nil =>
    cases h
    cases hb
  | cons a as ih =>
    rw [List.mapM_cons] at h
    obtain ⟨c, hc, h⟩ := Option.bind_eq_some_iff.1 h
    obtain ⟨cs, hcs, h⟩ := Option.bind_eq_some_iff.1 h
    cases h
    obtain rfl | hb := List.mem_cons.1 hb
    · exact ⟨a, List.mem_cons_self, hc⟩
    · obtain ⟨a', ha', hread⟩ := ih hcs hb
      exact ⟨a', List.mem_cons_of_mem _ ha', hread⟩

/-- Octets as an element of any type. -/
def Any.ofOctets (bs : Octets) : Any :=
  ⟨.ofOctets bs, rfl⟩

namespace Tlv

/-- A value of any type has a known tag. -/
@[simp] lemma known_any (a : Any) : a.tlv.Known :=
  a.known

/-- The tag of a sequence is known. -/
@[simp] lemma known_sequence (ts : List Tlv) : (sequence ts).Known :=
  rfl

/-- The tag of a set is known. -/
@[simp] lemma known_set (ts : List Tlv) : (set ts).Known :=
  rfl

/-- The tag of a truth value is known. -/
@[simp] lemma known_ofBool (b : Bool) : (ofBool b).Known :=
  rfl

/-- The tag of an INTEGER is known. -/
@[simp] lemma known_ofInt (n : Int) : (ofInt n).Known :=
  rfl

/-- The tag of a BIT STRING is known. -/
@[simp] lemma known_ofBitString (b : BitString) : (ofBitString b).Known :=
  rfl

/-- The tag of an OCTET STRING is known. -/
@[simp] lemma known_ofOctets (bs : Octets) : (ofOctets bs).Known :=
  rfl

/-- The tag of an object identifier is known. -/
@[simp] lemma known_ofOid (oid : Oid) : (ofOid oid).Known :=
  rfl

/-- The tag of an explicit field with a small number is known. -/
lemma known_explicit {n : UInt8} {t : Tlv}
    (h : Tag.isKnown (Tag.contextConstructed n) = true) : (explicit n t).Known :=
  h

/-- The tag of an implicit field with a small number is known. -/
lemma known_context {n : UInt8} {bs : Octets} (h : Tag.isKnown (Tag.context n) = true) :
    Known ⟨Tag.context n, bs⟩ :=
  h

/-- A truth value is read again. -/
@[simp] lemma toBool?_ofBool (b : Bool) : (ofBool b).toBool? = some b := by
  cases b <;> rfl

/-- A bit string is read again. -/
@[simp] lemma toBitString?_ofBitString (b : BitString) :
    (ofBitString b).toBitString? = some b := by
  have h := b.unused_le
  simp only [toBitString?, ofBitString, content?, BitString.content, BitString.ofContent?,
    Option.bind_eq_bind, Option.bind_some, if_true, dif_pos h]

/-- Octets are read again. -/
@[simp] lemma toOctets?_ofOctets (bs : Octets) : (ofOctets bs).toOctets? = some bs := by
  simp [toOctets?, ofOctets, content?]

/-- An identifier is read again exactly if it is long enough. -/
lemma toOid?_ofOid_iff {oid other : Oid} {shortest : Nat} :
    (ofOid oid).toOid? shortest = some other ↔ other = oid ∧ shortest ≤ oid.octets.length := by
  simp only [toOid?, ofOid, content?, if_true, Option.bind_eq_bind, Option.bind_some]
  split
  · simp
    omega
  · simp [eq_comm]
    omega

/-! ### Values that were read -/

/-- Content is read from an element with the right tag only. -/
lemma eq_of_content? {tag : UInt8} {t : Tlv} {bs : Octets} (h : t.content? tag = some bs) : t = ⟨tag, bs⟩ := by
  unfold content? at h
  split at h
  · rename_i htag
    cases h
    rw [← htag]
  · cases h

/-- Octets that were read have the form that they were read from. -/
lemma eq_ofOctets_of_toOctets? {t : Tlv} {bs : Octets} (h : t.toOctets? = some bs) : t = ofOctets bs :=
  eq_of_content? h

/-- A bit string that was read has the form that it was read from. -/
lemma eq_ofBitString_of_toBitString? {t : Tlv} {b : BitString} (h : t.toBitString? = some b) :
    t = ofBitString b := by
  obtain ⟨bs, hcontent, hb⟩ := Option.bind_eq_some_iff.1 h
  rw [eq_of_content? hcontent, ofBitString]
  unfold BitString.ofContent? at hb
  split at hb
  · cases hb
  · split at hb
    · cases hb
      rfl
    · cases hb

/-- An identifier that was read has the form that it was read from. -/
lemma eq_ofOid_of_toOid? {t : Tlv} {oid : Oid} {shortest : Nat} (h : t.toOid? shortest = some oid) :
    t = ofOid oid := by
  obtain ⟨bs, hcontent, hoid⟩ := Option.bind_eq_some_iff.1 h
  rw [eq_of_content? hcontent, ofOid]
  split at hoid
  · cases hoid
  · unfold Oid.ofOctets? at hoid
    split at hoid
    · cases hoid
      rfl
    · cases hoid

/-- An identifier that was read is long enough. -/
lemma le_of_toOid? {t : Tlv} {oid : Oid} {shortest : Nat} (h : t.toOid? shortest = some oid) :
    shortest ≤ oid.octets.length := by
  rw [eq_ofOid_of_toOid? h] at h
  exact (toOid?_ofOid_iff.1 h).2

end Tlv

end CertAuthority.Der
