import CertAuthority.Certificate.Basic
import CertAuthority.Extension.KeyIdentifier
import CertAuthority.Proofs.Der.Value
import CertAuthority.SignatureAlgorithm

/-!
# Parts of certificates are read as they were written

Algorithms, keys, names and extensions are read again exactly if the identifiers in them are long
enough for the reader; nothing else of what can be written is refused. Each structure has the list of
its identifiers, and one lemma that says both directions.
-/

namespace CertAuthority

open Der

namespace AlgorithmIdentifier

/-- An algorithm has a known tag, that of a sequence. -/
@[simp] lemma known_tlv (a : AlgorithmIdentifier) : a.tlv.Known :=
  rfl

/-- An algorithm is read again exactly if its identifier is long enough. -/
lemma ofTlv?_tlv_iff {a b : AlgorithmIdentifier} {shortest : Nat} (h : a.tlv.Fits) :
    ofTlv? a.tlv shortest = some b ↔ b = a ∧ shortest ≤ a.algorithm.octets.length := by
  have hi : a.tlv.inside? Tag.sequence =
      some (.ofOid a.algorithm :: a.parameters.toList.map Any.tlv) := by
    refine Tlv.inside?_around h fun t ht => ?_
    cases hp : a.parameters with
    | none => simp_all
    | some p => rcases (by simpa [hp] using ht : t = _ ∨ t = p.tlv) with rfl | rfl <;> simp
  obtain ⟨algorithm, parameters⟩ := a
  simp only [ofTlv?, hi, Option.bind_eq_bind, Option.bind_some]
  cases parameters with
  | none => exact bind_eq_some_iff_of_part (fun _ => Tlv.toOid?_ofOid_iff) rfl
  | some p =>
    refine bind_eq_some_iff_of_part (fun _ => Tlv.toOid?_ofOid_iff) ?_
    rw [Any.ofTlv?_tlv]
    rfl

/-- An algorithm that was read has the form that it was read from. -/
lemma eq_tlv_of_ofTlv? {t : Tlv} {a : AlgorithmIdentifier} {shortest : Nat} (h : ofTlv? t shortest = some a) :
    t = a.tlv := by
  obtain ⟨ts, hinside, h⟩ := Option.bind_eq_some_iff.1 h
  rw [(Tlv.eq_of_inside? hinside).1]
  split at h
  · obtain ⟨oid, hoid, h⟩ := Option.bind_eq_some_iff.1 h
    cases h
    rw [Tlv.eq_ofOid_of_toOid? hoid]
    rfl
  · obtain ⟨oid, hoid, h⟩ := Option.bind_eq_some_iff.1 h
    obtain ⟨parameters, hparameters, h⟩ := Option.bind_eq_some_iff.1 h
    cases h
    rw [Tlv.eq_ofOid_of_toOid? hoid, Any.eq_tlv_of_ofTlv? hparameters]
    rfl
  · cases h

/-- An algorithm that was read has an identifier that is long enough. -/
lemma le_of_ofTlv? {t : Tlv} {a : AlgorithmIdentifier} {shortest : Nat} (h : ofTlv? t shortest = some a) :
    shortest ≤ a.algorithm.octets.length := by
  obtain ⟨ts, -, h⟩ := Option.bind_eq_some_iff.1 h
  split at h
  · obtain ⟨oid, hoid, h⟩ := Option.bind_eq_some_iff.1 h
    cases h
    exact Tlv.le_of_toOid? hoid
  · obtain ⟨oid, hoid, h⟩ := Option.bind_eq_some_iff.1 h
    obtain ⟨parameters, -, h⟩ := Option.bind_eq_some_iff.1 h
    cases h
    exact Tlv.le_of_toOid? hoid
  · cases h

end AlgorithmIdentifier

/-- The identifiers of the algorithms of signatures are long enough for the engine's reader. -/
lemma SignatureAlgorithm.three_le_length (a : SignatureAlgorithm) :
    3 ≤ a.identifier.algorithm.octets.length := by
  cases a <;> decide

namespace PublicKeyInfo

/-- A public key has a known tag, that of a sequence. -/
@[simp] lemma known_tlv (k : PublicKeyInfo) : k.tlv.Known :=
  rfl

/-- The identifier of a key has the length of a SHA-1 hash. -/
lemma length_keyIdentifier (k : PublicKeyInfo) : k.keyIdentifier.length = 20 := by
  simp [keyIdentifier, Hash.Sha1.hash, Hash.octets32]

/-- A public key is read again exactly if the identifier of its algorithm is long enough. -/
lemma ofTlv?_tlv_iff {k l : PublicKeyInfo} {shortest : Nat} (h : k.tlv.Fits) :
    ofTlv? k.tlv shortest = some l ↔ l = k ∧ shortest ≤ k.algorithm.algorithm.octets.length := by
  have hi : k.tlv.inside? Tag.sequence = some [k.algorithm.tlv, .ofBitString k.key] :=
    Tlv.inside?_around h (by simp)
  have ha : k.algorithm.tlv.Fits := h.of_mem (by simp)
  simp only [ofTlv?, hi, Option.bind_eq_bind, Option.bind_some, Tlv.toBitString?_ofBitString]
  exact bind_eq_some_iff_of_part (fun _ => AlgorithmIdentifier.ofTlv?_tlv_iff ha) rfl

/-- A public key that was read has the form that it was read from. -/
lemma eq_tlv_of_ofTlv? {t : Tlv} {k : PublicKeyInfo} {shortest : Nat} (h : ofTlv? t shortest = some k) :
    t = k.tlv := by
  obtain ⟨ts, hinside, h⟩ := Option.bind_eq_some_iff.1 h
  rw [(Tlv.eq_of_inside? hinside).1]
  split at h
  · obtain ⟨algorithm, halgorithm, h⟩ := Option.bind_eq_some_iff.1 h
    obtain ⟨key, hkey, h⟩ := Option.bind_eq_some_iff.1 h
    cases h
    rw [AlgorithmIdentifier.eq_tlv_of_ofTlv? halgorithm, Tlv.eq_ofBitString_of_toBitString? hkey]
    rfl
  · cases h

end PublicKeyInfo

namespace NameAttribute

/-- An attribute of a name has a known tag, that of a sequence. -/
@[simp] lemma known_tlv (a : NameAttribute) : a.tlv.Known :=
  rfl

/-- An attribute is read again exactly if the identifier of its type is long enough. -/
lemma ofTlv?_tlv_iff {a b : NameAttribute} {shortest : Nat} (h : a.tlv.Fits) :
    ofTlv? a.tlv shortest = some b ↔ b = a ∧ shortest ≤ a.type.octets.length := by
  have hi : a.tlv.inside? Tag.sequence = some [.ofOid a.type, a.value.tlv] :=
    Tlv.inside?_around h (by simp)
  simp only [ofTlv?, hi, Option.bind_eq_bind, Option.bind_some, Any.ofTlv?_tlv]
  exact bind_eq_some_iff_of_part (fun _ => Tlv.toOid?_ofOid_iff) rfl

/-- An attribute of a name that was read has a type that is long enough. -/
lemma le_of_ofTlv? {t : Tlv} {a : NameAttribute} {shortest : Nat} (h : ofTlv? t shortest = some a) :
    shortest ≤ a.type.octets.length := by
  obtain ⟨ts, -, h⟩ := Option.bind_eq_some_iff.1 h
  split at h
  · obtain ⟨type, htype, h⟩ := Option.bind_eq_some_iff.1 h
    obtain ⟨value, -, h⟩ := Option.bind_eq_some_iff.1 h
    cases h
    exact Tlv.le_of_toOid? htype
  · cases h

end NameAttribute

namespace RelativeName

/-- The types of the attributes of a relative name. -/
def identifiers (r : RelativeName) : List Oid :=
  r.attributes.map NameAttribute.type

/-- A part of a name has a known tag, that of a set. -/
@[simp] lemma known_tlv (r : RelativeName) : r.tlv.Known :=
  rfl

/-- The attributes of a relative name make up that relative name. -/
@[simp] lemma ofAttributes?_attributes (r : RelativeName) :
    ofAttributes? r.attributes = some r := by
  simp [ofAttributes?, r.ascending]

/-- A relative name is read again exactly if the identifiers in it are long enough. Its attributes are
in order already. -/
lemma ofTlv?_tlv_iff {r s : RelativeName} {shortest : Nat} (h : r.tlv.Fits) :
    ofTlv? r.tlv shortest = some s ↔ s = r ∧ ∀ o ∈ r.identifiers, shortest ≤ o.octets.length := by
  have hi : r.tlv.inside? Tag.set = some (r.attributes.map NameAttribute.tlv) :=
    Tlv.inside?_around h (by simp)
  have hm : ∀ as : List NameAttribute,
      (r.attributes.map NameAttribute.tlv).mapM (fun t => NameAttribute.ofTlv? t shortest) =
        some as ↔ as = r.attributes ∧ ∀ a ∈ r.attributes, shortest ≤ a.type.octets.length := by
    intro as
    refine mapM_map_eq_some_iff fun a ha b => NameAttribute.ofTlv?_tlv_iff ?_
    exact h.of_mem (List.mem_map_of_mem ha)
  simp only [ofTlv?, hi, r.ascending, Option.bind_eq_bind, Option.bind_some, identifiers,
    List.forall_mem_map]
  exact bind_eq_some_iff_of_part hm (ofAttributes?_attributes r)

/-- The types in a part of a name that was read are long enough. -/
lemma le_of_ofTlv? {t : Tlv} {r : RelativeName} {shortest : Nat} (h : ofTlv? t shortest = some r) :
    ∀ o ∈ r.identifiers, shortest ≤ o.octets.length := by
  obtain ⟨ts, -, h⟩ := Option.bind_eq_some_iff.1 h
  obtain ⟨us, -, h⟩ := Option.bind_eq_some_iff.1 h
  obtain ⟨attributes, hattributes, h⟩ := Option.bind_eq_some_iff.1 h
  have hr : r.attributes = attributes := by
    unfold ofAttributes? at h
    split at h
    · cases h
      rfl
    · cases h
  rw [identifiers, hr]
  intro o ho
  obtain ⟨a, ha, rfl⟩ := List.mem_map.1 ho
  obtain ⟨u, -, hu⟩ := exists_of_mem_mapM hattributes ha
  exact NameAttribute.le_of_ofTlv? hu

end RelativeName

namespace Name

/-- The identifiers in a name. -/
def identifiers (n : Name) : List Oid :=
  n.rdns.flatMap RelativeName.identifiers

/-- A name has a known tag, that of a sequence. -/
@[simp] lemma known_tlv (n : Name) : n.tlv.Known :=
  rfl

/-- A name is read again exactly if the identifiers in it are long enough. -/
lemma ofTlv?_tlv_iff {n m : Name} {shortest : Nat} (h : n.tlv.Fits) :
    ofTlv? n.tlv shortest = some m ↔ m = n ∧ ∀ o ∈ n.identifiers, shortest ≤ o.octets.length := by
  have hi : n.tlv.inside? Tag.sequence = some (n.rdns.map RelativeName.tlv) :=
    Tlv.inside?_around h (by simp)
  have hm : ∀ rs : List RelativeName,
      (n.rdns.map RelativeName.tlv).mapM (fun t => RelativeName.ofTlv? t shortest) = some rs ↔
        rs = n.rdns ∧ ∀ r ∈ n.rdns, ∀ o ∈ r.identifiers, shortest ≤ o.octets.length := by
    intro rs
    refine mapM_map_eq_some_iff fun r hr s => RelativeName.ofTlv?_tlv_iff ?_
    exact h.of_mem (List.mem_map_of_mem hr)
  simp only [ofTlv?, hi, Option.bind_eq_bind, Option.bind_some, identifiers,
    List.forall_mem_flatMap]
  exact bind_eq_some_iff_of_part hm rfl

/-- The types in a name that was read are long enough. -/
lemma le_of_ofTlv? {t : Tlv} {n : Name} {shortest : Nat} (h : ofTlv? t shortest = some n) :
    ∀ o ∈ n.identifiers, shortest ≤ o.octets.length := by
  obtain ⟨ts, -, h⟩ := Option.bind_eq_some_iff.1 h
  obtain ⟨rdns, hrdns, h⟩ := Option.bind_eq_some_iff.1 h
  cases h
  intro o ho
  obtain ⟨r, hr, ho⟩ := List.mem_flatMap.1 ho
  obtain ⟨u, -, hu⟩ := exists_of_mem_mapM hrdns hr
  exact RelativeName.le_of_ofTlv? hu o ho

end Name

namespace SerialNumber

/-- A serial number has a known tag, that of an INTEGER. -/
@[simp] lemma known_tlv (s : SerialNumber) : s.tlv.Known :=
  rfl

/-- A serial number that the reader passes. -/
def Readable (s : SerialNumber) : Prop :=
  ofTlv? s.tlv = some s

/-- A serial number that was read has the form that it was read from. -/
lemma eq_tlv_of_ofTlv? {t : Tlv} {s : SerialNumber} (h : ofTlv? t = some s) : t = s.tlv := by
  simp only [ofTlv?, Option.bind_eq_bind, Option.bind_none, Option.bind_eq_some_iff,
    Option.ite_none_left_eq_some] at h
  obtain ⟨content, hcontent, -, h⟩ := h
  rw [Tlv.eq_of_content? hcontent]
  split at h
  · cases (Option.ite_none_left_eq_some.1 h).2
    rfl
  · cases h
    rfl

/-- A serial number that was read can be read again. -/
lemma readable_of_ofTlv? {t : Tlv} {s : SerialNumber} (h : ofTlv? t = some s) : s.Readable := by
  rwa [Readable, ← eq_tlv_of_ofTlv? h]

end SerialNumber

namespace Extension

/-- An extension has a known tag, that of a sequence. -/
@[simp] lemma known_tlv (e : Extension) : e.tlv.Known :=
  rfl

/-- A list of extensions has a known tag, that of a sequence. -/
@[simp] lemma known_listTlv (es : List Extension) : (listTlv es).Known :=
  rfl

/-- An extension is read again exactly if its identifier is long enough. -/
lemma ofTlv?_tlv_iff {e f : Extension} {shortest : Nat} (h : e.tlv.Fits) :
    ofTlv? e.tlv shortest = some f ↔ f = e ∧ shortest ≤ e.oid.octets.length := by
  obtain ⟨oid, critical, value⟩ := e
  cases critical with
  | false =>
    have hi : (tlv ⟨oid, false, value⟩).inside? Tag.sequence = some [.ofOid oid, .ofOctets value] :=
      Tlv.inside?_around h (by simp)
    simp only [ofTlv?, hi, Option.bind_eq_bind, Option.bind_some, Tlv.toOctets?_ofOctets]
    exact bind_eq_some_iff_of_part (fun _ => Tlv.toOid?_ofOid_iff) rfl
  | true =>
    have hi : (tlv ⟨oid, true, value⟩).inside? Tag.sequence =
        some [.ofOid oid, .ofBool true, .ofOctets value] :=
      Tlv.inside?_around h (by simp)
    simp only [ofTlv?, hi, Option.bind_eq_bind, Option.bind_some, Tlv.toBool?_ofBool,
      Tlv.toOctets?_ofOctets]
    exact bind_eq_some_iff_of_part (fun _ => Tlv.toOid?_ofOid_iff) rfl

/-- An element in the value of an extension that fits fits. -/
lemma fits_of_value {e : Extension} {t : Tlv} (h : e.tlv.Fits) (ht : e.value = t.encode) : t.Fits := by
  have hvalue : (Tlv.ofOctets e.value).Fits := h.of_mem (by simp)
  rw [ht] at hvalue
  exact Tlv.fits_of_length_encode hvalue

/-- The elements in the values of extensions fit if the field in which the extensions stand does. -/
lemma fits_of_mem_getD (n : UInt8) {extensions : Option (List Extension)} {e : Extension} {t : Tlv}
    (h : ∀ es ∈ extensions, (Tlv.explicit n (listTlv es)).Fits) (he : e ∈ extensions.getD [])
    (ht : e.value = t.encode) : t.Fits := by
  cases extensions with
  | none => cases he
  | some es =>
    have hlist : (listTlv es).Fits := (h es rfl).of_mem List.mem_cons_self
    exact fits_of_value (hlist.of_mem (List.mem_map_of_mem he)) ht

/-- A list of extensions is read again exactly if their identifiers are long enough. -/
lemma listOfTlv?_listTlv_iff {es fs : List Extension} {shortest : Nat} (h : (listTlv es).Fits) :
    listOfTlv? (listTlv es) shortest = some fs ↔
      fs = es ∧ ∀ e ∈ es, shortest ≤ e.oid.octets.length := by
  have hi : (listTlv es).inside? Tag.sequence = some (es.map tlv) :=
    Tlv.inside?_around h (by simp)
  simp only [listOfTlv?, hi, Option.bind_eq_bind, Option.bind_some]
  exact mapM_map_eq_some_iff fun e he f => ofTlv?_tlv_iff (h.of_mem (List.mem_map_of_mem he))

end Extension

/-- The name of a key is read again. -/
lemma KeyIdentifier.authorityOfTlv?_authorityTlv {id : Octets} (h : (authorityTlv id).Fits) :
    authorityOfTlv? (authorityTlv id) = some id := by
  have hi : (authorityTlv id).inside? Tag.sequence = some [⟨Tag.context 0, id⟩] := by
    apply Tlv.inside?_around h
    intro t ht
    rw [List.mem_singleton.1 ht]
    exact Tlv.known_context (by decide)
  simp [authorityOfTlv?, hi, Tlv.content?]

end CertAuthority
