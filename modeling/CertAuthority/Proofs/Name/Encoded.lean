import CertAuthority.Name.Distinguished
import CertAuthority.Proofs.Certificate.Parts
import CertAuthority.Proofs.Der.Length
import CertAuthority.Proofs.Error

/-!
# Textual names in octets

Whether an attribute can be encoded depends on its type and its value only (`TypedValue.encode_eq_ok_iff`), so a
name fails in both encodings or in none, and with the error of its last attribute that does not fit. The octets
of a name are read as its attributes, most general first, each with the string type of its value
(`DistinguishedName.toName_written`). So names are written in one way only, and different names have different
octets. Read from its last relative name to its first, the name that a textual name makes gives its attributes
back (`DistinguishedName.typed?_of_toName`).
-/

namespace CertAuthority

open Der

/-! ### Octets that can be read -/

/-- Texts are told apart by their octets. -/
lemma Octets.ofString_inj {s t : String} : ofString s = ofString t ↔ s = t :=
  written_inj toString? (toString?_ofString s) (toString?_ofString t)

/-- Names that can be read again have different octets. -/
lemma Name.encode_inj {n m : Name} (hn : n.tlv.Fits) (hm : m.tlv.Fits) : n.encode = m.encode ↔ n = m := by
  refine ⟨fun h => ?_, congrArg encode⟩
  have htlv : n.tlv = m.tlv := (Tlv.encode_inj ⟨n.known_tlv, hn⟩ ⟨m.known_tlv, hm⟩).1 h
  have hread : ofTlv? n.tlv 0 = some n := (ofTlv?_tlv_iff hn).2 ⟨rfl, fun _ _ => Nat.zero_le _⟩
  rw [htlv] at hread
  exact ((ofTlv?_tlv_iff hm).1 hread).1

/-! ### String types -/

namespace AttributeType

/-- The types whose values are in ASCII. -/
def asciiTypes : List Oid :=
  [.emailAddress, .domainComponent]

/-- The types whose values are in the alphabet of a PrintableString. -/
def printableTypes : List Oid :=
  [.country, .serialNumber, .dnQualifier]

/-- The rule of each type in the table is that of the list in which the type is. -/
lemma rule_table : ∀ t ∈ table, t.rule =
    if t.oid ∈ asciiTypes then .ia5 else if t.oid ∈ printableTypes then .printable else .directory := by
  decide +kernel

/-- The types with rules of their own stand in the table. -/
lemma isSome_ofOid? : ∀ oid ∈ asciiTypes ++ printableTypes, (ofOid? oid).isSome = true := by
  decide +kernel

/-- Only these types have a string type of their own. -/
lemma ruleOf_eq (oid : Oid) : ruleOf oid =
    if oid ∈ asciiTypes then .ia5 else if oid ∈ printableTypes then .printable else .directory := by
  rw [ruleOf]
  split
  · rename_i known hknown
    have hoid : known.oid = oid := by simpa using List.find?_some hknown
    rw [rule_table known (List.mem_of_find?_eq_some hknown), hoid]
  · rename_i hnone
    have hother (h : oid ∈ asciiTypes ++ printableTypes) : False := by
      have hsome := isSome_ofOid? oid h
      rw [hnone] at hsome
      cases hsome
    rw [if_neg fun h => hother (List.mem_append_left _ h), if_neg fun h => hother (List.mem_append_right _ h)]

end AttributeType

open AttributeType (asciiTypes printableTypes)

namespace TypedValue

/-- The string type that an attribute asks for and that its value does not fit into. -/
def misfit? (a : TypedValue) : Option String :=
  if a.type ∈ asciiTypes then if Text.isAscii a.value then none else some "IA5String"
  else if a.type ∈ printableTypes then if Text.isPrintable a.value then none else some "PrintableString"
  else none

/-- The tag of the string type in which a value is written. -/
def stringTag (encoding : NameEncoding) (a : TypedValue) : UInt8 :=
  if a.type ∈ asciiTypes then Tag.ia5String
  else if a.type ∈ printableTypes then Tag.printableString
  else if encoding = .printable ∧ Text.isPrintable a.value = true then Tag.printableString
  else Tag.utf8String

/-- The tag of a value is that of the string type that the encoding asks for. -/
lemma tag_eq (encoding : NameEncoding) (a : TypedValue) : a.tag encoding = a.stringTag encoding := by
  unfold tag stringTag
  rw [AttributeType.ruleOf_eq]
  by_cases hascii : a.type ∈ asciiTypes
  · simp only [if_pos hascii]
  · by_cases hprintable : a.type ∈ printableTypes
    · simp only [if_neg hascii, if_pos hprintable]
    · simp only [if_neg hascii, if_neg hprintable]
      cases encoding <;> simp

/-- An attribute whose value fits is written with its type and its value. -/
lemma encode_eq_ok_iff {encoding : NameEncoding} {a : TypedValue} {b : NameAttribute} :
    a.encode encoding = .ok b ↔ a.misfit? = none ∧ b = ⟨a.type, a.any encoding⟩ := by
  rw [encode, misfit?, AttributeType.ruleOf_eq]
  by_cases hascii : a.type ∈ asciiTypes
  · simp only [if_pos hascii]
    split <;> simp [eq_comm]
  · by_cases hprintable : a.type ∈ printableTypes
    · simp only [if_neg hascii, if_pos hprintable]
      split <;> simp [eq_comm]
    · simp only [if_neg hascii, if_neg hprintable]
      simp [eq_comm]

/-- Any other attribute is refused, with the string type that it asks for. -/
lemma encode_eq_error_iff {encoding : NameEncoding} {a : TypedValue} {e : ParseError} :
    a.encode encoding = .error e ↔
      ∃ kind, a.misfit? = some kind ∧ e = .invalidString (AttributeType.label a.type) a.value kind := by
  rw [encode, misfit?, AttributeType.ruleOf_eq]
  by_cases hascii : a.type ∈ asciiTypes
  · simp only [if_pos hascii]
    split <;> simp [eq_comm]
  · by_cases hprintable : a.type ∈ printableTypes
    · simp only [if_neg hascii, if_pos hprintable]
      split <;> simp [eq_comm]
    · simp only [if_neg hascii, if_neg hprintable]
      simp

end TypedValue

/-! ### Names -/

/-- What the octets of a name hold, by relative names: the types of the attributes and the tags and the octets of
their values. Types with fewer octets than `shortest` are not read; the standard has no such bound. -/
def Name.contents? (octets : Octets) (shortest : Nat := 0) : Option (List (List (Oid × UInt8 × Octets))) := do
  let n ← ofTlv? (← Tlv.decode? octets) shortest
  return n.rdns.map fun r => r.attributes.map fun a => (a.type, a.value.tlv.tag, a.value.tlv.content)

namespace DistinguishedName

variable {dn dn' : DistinguishedName} {encoding encoding' : NameEncoding} {n n' : Name}

/-- A name is encoded attribute by attribute, most general first. -/
lemma toName_eq_ok_iff : dn.toName encoding = .ok n ↔
    (∀ a ∈ dn.attributes, a.misfit? = none) ∧
      n = ⟨dn.attributes.reverse.map fun a => .single ⟨a.type, a.any encoding⟩⟩ := by
  rw [toName, bind_eq_ok_iff]
  simp only [pure_eq_ok_iff, mapM_eq_ok_iff_of_forall fun a _ b =>
    TypedValue.encode_eq_ok_iff.trans (and_congr_right fun _ => eq_comm), List.mem_reverse]
  constructor
  · rintro ⟨as, ⟨hfit, rfl⟩, rfl⟩
    exact ⟨hfit, by rw [List.map_map]; rfl⟩
  · rintro ⟨hfit, rfl⟩
    exact ⟨_, ⟨hfit, rfl⟩, by rw [List.map_map]; rfl⟩

/-- A name fails with the error of its last attribute that does not fit. -/
lemma toName_eq_error_iff {e : ParseError} : dn.toName encoding = .error e ↔
    ∃ before a after kind, dn.attributes = before ++ a :: after ∧ a.misfit? = some kind ∧
      (∀ b ∈ after, b.misfit? = none) ∧ e = .invalidString (AttributeType.label a.type) a.value kind := by
  have hfits (b : TypedValue) : (∃ c, b.encode encoding = .ok c) ↔ b.misfit? = none := by
    simp [TypedValue.encode_eq_ok_iff]
  -- The attributes are taken from the last one to the first one.
  simp only [toName, bind_pure_eq_error_iff, mapM_eq_error_iff, hfits, TypedValue.encode_eq_error_iff, List.reverse_eq_iff,
    List.reverse_append, List.reverse_cons, List.append_assoc, List.singleton_append]
  constructor
  · rintro ⟨before, a, after, hsplit, hbefore, kind, hkind, he⟩
    exact ⟨after.reverse, a, before.reverse, kind, hsplit, hkind, by simpa using hbefore, he⟩
  · rintro ⟨before, a, after, kind, hsplit, hkind, hafter, he⟩
    exact ⟨after.reverse, a, before.reverse, by simpa using hsplit, by simpa using hafter, kind, hkind, he⟩

/-- No other textual name makes the same name, in whatever encoding. -/
lemma eq_of_toName (h : dn.toName encoding = .ok n) (h' : dn'.toName encoding' = .ok n) : dn = dn' := by
  -- the types and the octets of the values do not depend on the encoding
  let back (r : RelativeName) : List (Oid × Octets) := r.attributes.map fun a => (a.type, a.value.tlv.content)
  let pair (a : TypedValue) : List (Oid × Octets) := [(a.type, Octets.ofString a.value)]
  have hback (e : NameEncoding) (d : DistinguishedName) :
      (d.attributes.reverse.map fun a => RelativeName.single ⟨a.type, a.any e⟩).map back =
        d.attributes.reverse.map pair := by
    rw [List.map_map]
    rfl
  have hpair : Function.Injective pair := by
    rintro ⟨type, value⟩ ⟨type', value'⟩ hsame
    simp only [pair, List.cons.injEq, Prod.mk.injEq, Octets.ofString_inj, and_true] at hsame
    rw [hsame.1, hsame.2]
  have hn := (toName_eq_ok_iff.1 h).2.symm.trans (toName_eq_ok_iff.1 h').2
  have hattributes : dn.attributes.reverse.map pair = dn'.attributes.reverse.map pair := by
    rw [← hback encoding, ← hback encoding', Name.mk.inj hn]
  have hsame := List.reverse_injective (hpair.list_map hattributes)
  cases dn
  exact congrArg mk hsame

/-- The octets of a name hold its attributes. -/
lemma contents?_of_toName (h : dn.toName encoding = .ok n) (hfits : n.tlv.Fits) (shortest : Nat) :
    Name.contents? n.encode shortest =
      if ∀ a ∈ dn.attributes, shortest ≤ a.type.octets.length then
        some (dn.attributes.map fun a => [(a.type, a.stringTag encoding, Octets.ofString a.value)]).reverse
      else none := by
  obtain ⟨-, hn⟩ := toName_eq_ok_iff.1 h
  have hidentifiers : (∀ o ∈ n.identifiers, shortest ≤ o.octets.length) ↔
      ∀ a ∈ dn.attributes, shortest ≤ a.type.octets.length := by
    rw [hn]
    simp [Name.identifiers, RelativeName.identifiers, RelativeName.single]
  have hrdns : (n.rdns.map fun r => r.attributes.map fun a => (a.type, a.value.tlv.tag, a.value.tlv.content)) =
      (dn.attributes.map fun a => [(a.type, a.stringTag encoding, Octets.ofString a.value)]).reverse := by
    rw [hn, ← List.map_reverse, List.map_map]
    refine List.map_congr_left fun a _ => ?_
    rw [← TypedValue.tag_eq]
    rfl
  -- The reader refuses the name as a whole if one identifier is too short.
  have hdecode : Tlv.decode? n.encode = some n.tlv := Tlv.decode?_encode ⟨n.known_tlv, hfits⟩
  rw [Name.contents?, hdecode, Option.bind_eq_bind, Option.bind_some]
  split
  · rename_i hlong
    have hread : Name.ofTlv? n.tlv shortest = some n := (Name.ofTlv?_tlv_iff hfits).2 ⟨rfl, hidentifiers.2 hlong⟩
    rw [hread, ← hrdns]
    rfl
  · rename_i hshort
    have hread : Name.ofTlv? n.tlv shortest = none := by
      refine Option.eq_none_iff_forall_ne_some.2 fun m hm => ?_
      exact hshort (hidentifiers.1 ((Name.ofTlv?_tlv_iff hfits).1 hm).2)
    rw [hread]
    rfl

/-- Whether and why a name cannot be encoded does not depend on the encoding: it fails exactly if the value of an
attribute does not fit into the string type that its own type asks for, with the error of the last such
attribute. Otherwise its octets hold its attributes, most general first, one in each relative name and each in
its string type. No other name has the same octets, in whatever encoding. -/
theorem toName_written (dn : DistinguishedName) (encoding : NameEncoding) :
    ((∃ n, dn.toName encoding = .ok n) ↔ ∀ a ∈ dn.attributes, a.misfit? = none) ∧
    (∀ e, dn.toName encoding = .error e ↔
      ∃ before a after kind, dn.attributes = before ++ a :: after ∧ a.misfit? = some kind ∧
        (∀ b ∈ after, b.misfit? = none) ∧ e = .invalidString (AttributeType.label a.type) a.value kind) ∧
    ∀ n, dn.toName encoding = .ok n → n.tlv.Fits →
      (∀ shortest, Name.contents? n.encode shortest =
        if ∀ a ∈ dn.attributes, shortest ≤ a.type.octets.length then
          some (dn.attributes.map fun a => [(a.type, a.stringTag encoding, Octets.ofString a.value)]).reverse
        else none) ∧
      ∀ dn' encoding' n', dn'.toName encoding' = .ok n' → n'.encode = n.encode → dn' = dn := by
  refine ⟨?_, fun e => toName_eq_error_iff, fun n h hfits => ⟨contents?_of_toName h hfits, ?_⟩⟩
  · simp only [toName_eq_ok_iff, exists_and_left, exists_eq, and_true]
  · intro dn' encoding' n' h' hsame
    have hfits' : n'.tlv.Fits := by
      have hread : Tlv.decode? n'.tlv.encode = some n.tlv := by
        rw [← Name.encode, hsame]
        exact Tlv.decode?_encode ⟨n.known_tlv, hfits⟩
      exact Tlv.fits_of_decode?_encode hread
    obtain rfl := (Name.encode_inj hfits' hfits).1 hsame
    exact eq_of_toName h' h

/-- A name with a value for each of the string types. -/
def sampleName : DistinguishedName :=
  ⟨[⟨.commonName, "Zoë"⟩, ⟨.organization, "A, B"⟩, ⟨.emailAddress, "z@b"⟩, ⟨.country, "SE"⟩]⟩

/-- The four values are written in reverse order, each with the string type that its content allows. -/
theorem sample_written :
    ∃ n, sampleName.toName .printable = .ok n ∧ n.tlv.Fits ∧
      Name.contents? n.encode =
        some [[(.country, Tag.printableString, Octets.ofString "SE")],
          [(.emailAddress, Tag.ia5String, Octets.ofString "z@b")],
          [(.organization, Tag.printableString, Octets.ofString "A, B")],
          [(.commonName, Tag.utf8String, Octets.ofString "Zoë")]] := by
  obtain ⟨n, hn⟩ := (toName_written sampleName .printable).1.2 (by decide +kernel)
  have hlength : (sampleName.toName .printable).map (fun n => decide (n.tlv.content.length ≤ maxLength)) =
      .ok true := by
    decide +kernel
  rw [hn] at hlength
  have hfits : n.tlv.content.length ≤ maxLength := of_decide_eq_true (Except.ok.inj hlength)
  refine ⟨n, hn, hfits, ?_⟩
  rw [((toName_written sampleName .printable).2.2 n hn hfits).1 0]
  rfl

end DistinguishedName

/-! ### Names read back -/

/-- An attribute whose value is a text in the alphabet of its string type. -/
def NameAttribute.typed? (a : NameAttribute) : Option TypedValue := do
  let value ← Octets.toString? a.value.tlv.content
  let inAlphabet :=
    if a.value.tlv.tag = Tag.ia5String then Text.isAscii value
    else if a.value.tlv.tag = Tag.printableString then Text.isPrintable value
    else a.value.tlv.tag == Tag.utf8String
  if inAlphabet then some ⟨a.type, value⟩ else none

/-- The attribute of a relative name that has one only. -/
def RelativeName.typed? (r : RelativeName) : Option TypedValue :=
  match r.attributes with
  | [a] => a.typed?
  | _ => none

/-- The attributes of a name from its last relative name to its first, each of which has one only. -/
def Name.typed? (n : Name) : Option (List TypedValue) :=
  n.rdns.reverse.mapM RelativeName.typed?

/-- An attribute whose value fits is read back from its own string type. -/
lemma TypedValue.typed?_any {a : TypedValue} (encoding : NameEncoding) (h : a.misfit? = none) :
    NameAttribute.typed? ⟨a.type, a.any encoding⟩ = some a := by
  have htag : (a.any encoding).tlv.tag = a.stringTag encoding := a.tag_eq encoding
  have hvalue : Octets.toString? (a.any encoding).tlv.content = some a.value := Octets.toString?_ofString a.value
  have hia5 : (Tag.printableString = Tag.ia5String) = False := by decide
  have hutf8 : (Tag.utf8String = Tag.ia5String) = False := by decide
  have hutf8' : (Tag.utf8String = Tag.printableString) = False := by decide
  rw [NameAttribute.typed?, hvalue, htag]
  unfold misfit? at h
  simp only [Option.bind_eq_bind, Option.bind_some, stringTag]
  by_cases hascii : a.type ∈ asciiTypes
  · rw [if_pos hascii] at h
    simpa [hascii] using h
  · by_cases hprintable : a.type ∈ printableTypes
    · rw [if_neg hascii, if_pos hprintable] at h
      simpa [hascii, hprintable, hia5] using h
    · by_cases hchoice : encoding = .printable ∧ Text.isPrintable a.value = true
      · simp [hascii, hprintable, hchoice, hia5]
      · simp [hascii, hprintable, hchoice, hutf8, hutf8']

/-- The attributes of a textual name are read back from the name that it makes. -/
lemma DistinguishedName.typed?_of_toName {dn : DistinguishedName} {encoding : NameEncoding} {n : Name}
    (h : dn.toName encoding = .ok n) : n.typed? = some dn.attributes := by
  obtain ⟨hfit, rfl⟩ := toName_eq_ok_iff.1 h
  rw [Name.typed?, ← List.map_reverse, List.reverse_reverse]
  refine (mapM_map_eq_some_iff fun a ha b => ?_).2 ⟨rfl, hfit⟩
  have hread : RelativeName.typed? (.single ⟨a.type, a.any encoding⟩) = some a := a.typed?_any encoding (hfit a ha)
  rw [hread, Option.some.injEq]
  exact ⟨fun h => ⟨h.symm, hfit a ha⟩, fun h => h.1.symm⟩

end CertAuthority
