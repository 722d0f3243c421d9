import CertAuthority.AltName.Basic
import CertAuthority.Proofs.Name.Encoded

/-!
# Alternative names in octets

Every entry of a list of alternative names stands for a general name of its own kind, or cannot be encoded
(`AltName.toGeneralName_eq_ok_iff`, `AltName.exists_standsFor_iff`). General names are read again from their
octets (`GeneralName.listOfTlv?_listTlv_iff`), so that the list is read with the kinds, the contents and the order
of its entries.
-/

namespace CertAuthority

open Der

/-! ### Addresses -/

namespace Text

/-- A list has as many results as elements. -/
lemma length_of_mapM {α β : Type} {f : α → Option β} {as : List α} {bs : List β} (h : as.mapM f = some bs) :
    bs.length = as.length := by
  induction as generalizing bs with
  | nil =>
    cases h
    rfl
  | cons a as ih =>
    rw [List.mapM_cons] at h
    obtain ⟨b, -, h⟩ := Option.bind_eq_some_iff.1 h
    obtain ⟨cs, hcs, h⟩ := Option.bind_eq_some_iff.1 h
    cases h
    rw [List.length_cons, List.length_cons, ih hcs]

/-- An address of the fourth version has four octets. -/
lemma length_of_ipv4? {cs : List Char} {octets : Octets} (h : ipv4? cs = some octets) : octets.length = 4 := by
  unfold ipv4? at h
  simp only at h
  split at h
  · rename_i hparts
    rw [length_of_mapM h, hparts]
  · cases h

/-- An address of the sixth version has sixteen octets. -/
lemma length_of_ipv6? {cs : List Char} {octets : Octets} (h : ipv6? cs = some octets) : octets.length = 16 := by
  unfold ipv6? at h
  split at h
  · obtain ⟨bs, -, h⟩ := Option.bind_eq_some_iff.1 h
    split at h
    · rename_i hlength
      cases h
      exact hlength
    · cases h
  · obtain ⟨high, -, h⟩ := Option.bind_eq_some_iff.1 h
    obtain ⟨low, -, h⟩ := Option.bind_eq_some_iff.1 h
    split at h
    · rename_i hlength
      cases h
      simp only [List.length_append, List.length_replicate]
      omega
    · cases h

/-- An address of either version has its own number of octets. -/
lemma length_of_ipAddress? {s : String} {octets : Octets} (h : ipAddress? s = some octets) :
    octets.length = 4 ∨ octets.length = 16 := by
  unfold ipAddress? at h
  cases hv4 : ipv4? s.toList with
  | some bs =>
    rw [hv4] at h
    cases h
    exact .inl (length_of_ipv4? hv4)
  | none =>
    rw [hv4] at h
    exact .inr (length_of_ipv6? h)

end Text

/-! ### General names are read as they were written -/

namespace GeneralName

/-- The texts of a general name are ASCII. -/
def IsAscii : GeneralName → Prop
  | rfc822Name s | dnsName s | uri s => Text.isAscii s = true
  | _ => True

/-- The identifiers in a general name. -/
def identifiers : GeneralName → List Oid
  | directoryName n => n.identifiers
  | registeredId oid => [oid]
  | _ => []

/-- A name has a known tag, whatever kind it is of. -/
@[simp] lemma known_tlv (g : GeneralName) : g.tlv.Known := by
  cases g with
  | directoryName n => exact Tlv.known_explicit (by decide)
  | _ => exact Tlv.known_context (by decide)

/-- A list of names has a known tag, that of a sequence. -/
@[simp] lemma known_listTlv (names : List GeneralName) : (listTlv names).Known :=
  rfl

/-- An ASCII text is read again under any tag. -/
lemma asciiText?_ofText {tag : UInt8} {s : String} (h : Text.isAscii s = true) :
    asciiText? (.ofText tag s) = some s := by
  simp [asciiText?, Tlv.ofText, Octets.toString?_ofString, h]

/-- A general name is read again exactly if the identifiers in it are long enough. -/
lemma ofTlv?_tlv_iff {g other : GeneralName} {shortest : Nat} (hascii : g.IsAscii) (h : g.tlv.Fits) :
    ofTlv? g.tlv shortest = some other ↔ other = g ∧ ∀ o ∈ g.identifiers, shortest ≤ o.octets.length := by
  have htext {tag : UInt8} {s : String} {f : String → GeneralName} (hs : Text.isAscii s = true) :
      (asciiText? (.ofText tag s)).map f = some other ↔
        other = f s ∧ ∀ o ∈ ([] : List Oid), shortest ≤ o.octets.length := by
    rw [asciiText?_ofText hs, Option.map_some, Option.some.injEq, @eq_comm _ other]
    exact (and_iff_left (List.forall_mem_nil _)).symm
  cases g with
  | rfc822Name s => exact htext hascii
  | dnsName s => exact htext hascii
  | uri s => exact htext hascii
  | ipAddress octets =>
    show some (ipAddress octets) = some other ↔ _
    rw [Option.some.injEq, @eq_comm _ other]
    exact (and_iff_left (List.forall_mem_nil _)).symm
  | directoryName n =>
    have hname : n.tlv.Fits := h.of_mem List.mem_cons_self
    have hexplicit : (Tlv.explicit 4 n.tlv).explicit? 4 = some n.tlv := Tlv.explicit?_explicit h n.known_tlv
    show (((Tlv.explicit 4 n.tlv).explicit? 4).bind fun t => (Name.ofTlv? t shortest).bind fun m =>
      some (directoryName m)) = some other ↔ _
    rw [hexplicit, Option.bind_some]
    exact bind_eq_some_iff_of_part (fun _ => Name.ofTlv?_tlv_iff hname) rfl
  | registeredId oid =>
    show ((Tlv.ofOid oid).toOid? shortest).map registeredId = some other ↔ _
    rw [Option.map_eq_bind, identifiers, List.forall_mem_singleton]
    exact bind_eq_some_iff_of_part (fun _ => Tlv.toOid?_ofOid_iff) rfl

/-- The general names in an element with a tag. -/
def inside? (tag : UInt8) (t : Tlv) (shortest : Nat := shortestOid) : Option (List GeneralName) := do
  (← t.inside? tag).mapM fun t => ofTlv? t shortest

/-- General names are read again in whatever element they stand, exactly if the identifiers in them are long
enough. -/
lemma inside?_around_iff {tag : UInt8} {names others : List GeneralName} {shortest : Nat}
    (hascii : ∀ g ∈ names, g.IsAscii) (h : (Tlv.around tag (names.map tlv)).Fits) :
    inside? tag (.around tag (names.map tlv)) shortest = some others ↔
      others = names ∧ ∀ g ∈ names, ∀ o ∈ g.identifiers, shortest ≤ o.octets.length := by
  have hi : (Tlv.around tag (names.map tlv)).inside? tag = some (names.map tlv) := Tlv.inside?_around h (by simp)
  simp only [inside?, hi, Option.bind_eq_bind, Option.bind_some]
  exact mapM_map_eq_some_iff fun g hg other =>
    ofTlv?_tlv_iff (hascii g hg) (h.of_mem (List.mem_map_of_mem hg))

/-- A list of general names is read again exactly if the identifiers in it are long enough. -/
lemma listOfTlv?_listTlv_iff {names others : List GeneralName} {shortest : Nat} (hascii : ∀ g ∈ names, g.IsAscii)
    (h : (listTlv names).Fits) : listOfTlv? (listTlv names) shortest = some others ↔
      others = names ∧ ∀ g ∈ names, ∀ o ∈ g.identifiers, shortest ≤ o.octets.length :=
  inside?_around_iff hascii h

end GeneralName

namespace AltName

variable {encoding : NameEncoding} {name : AltName} {g : GeneralName}

/-- An entry stands for the general name of its kind with its content. -/
inductive StandsFor (encoding : NameEncoding) : AltName → GeneralName → Prop where
  | rfc822Name {value : String} :
    Text.isAscii value = true →
    StandsFor encoding ⟨.rfc822Name, value⟩ (.rfc822Name value)
  | dnsName {value : String} :
    Text.isAscii value = true →
    StandsFor encoding ⟨.dnsName, value⟩ (.dnsName value)
  | uri {value : String} :
    Text.isAscii value = true →
    StandsFor encoding ⟨.uri, value⟩ (.uri value)
  | ipAddress {value : String} {octets : Octets} :
    Text.ipAddress? (Text.trimmed value) = some octets →
    octets.length = 4 ∨ octets.length = 16 →
    StandsFor encoding ⟨.ipAddress, value⟩ (.ipAddress octets)
  | directoryName {value : String} {dn : DistinguishedName} {n : Name} :
    DistinguishedName.parse value = .ok dn →
    dn.toName encoding = .ok n →
    StandsFor encoding ⟨.directoryName, value⟩ (.directoryName n)
  | registeredId {value : String} {oid : Oid} :
    Oid.parse (Text.trimmed value) = .ok oid →
    StandsFor encoding ⟨.registeredId, value⟩ (.registeredId oid)

/-- What an entry must be to stand for a general name. -/
def IsEncodable (name : AltName) : Prop :=
  match name.kind with
  | .rfc822Name | .dnsName | .uri => Text.isAscii name.value = true
  | .ipAddress => (Text.ipAddress? (Text.trimmed name.value)).isSome = true
  | .directoryName =>
    ∃ dn, DistinguishedName.parse name.value = .ok dn ∧ ∀ a ∈ dn.attributes, a.misfit? = none
  | .registeredId => ∃ oid, Oid.parse (Text.trimmed name.value) = .ok oid

/-- A value is taken as it is exactly if it is ASCII. -/
lemma asciiValue_eq_ok_iff {label value s : String} :
    asciiValue label value = .ok s ↔ Text.isAscii value = true ∧ value = s := by
  unfold asciiValue
  split
  · rename_i h
    simp [h]
  · rename_i h
    simp [h]

/-- What an entry stands for is what it is encoded as. -/
lemma StandsFor.toGeneralName_eq (h : StandsFor encoding name g) : name.toGeneralName encoding = .ok g := by
  cases h with
  | rfc822Name h => exact map_eq_ok_iff.2 ⟨_, asciiValue_eq_ok_iff.2 ⟨h, rfl⟩, rfl⟩
  | dnsName h => exact map_eq_ok_iff.2 ⟨_, asciiValue_eq_ok_iff.2 ⟨h, rfl⟩, rfl⟩
  | uri h => exact map_eq_ok_iff.2 ⟨_, asciiValue_eq_ok_iff.2 ⟨h, rfl⟩, rfl⟩
  | ipAddress h _ => simp only [toGeneralName, h]
  | directoryName hdn hn => exact bind_eq_ok_iff.2 ⟨_, hdn, bind_eq_ok_iff.2 ⟨_, hn, rfl⟩⟩
  | registeredId h => simp only [toGeneralName, h]

/-- A name can be encoded exactly if it stands for something, and that is what is written. -/
lemma toGeneralName_eq_ok_iff : name.toGeneralName encoding = .ok g ↔ StandsFor encoding name g := by
  refine ⟨fun h => ?_, StandsFor.toGeneralName_eq⟩
  obtain ⟨kind, value⟩ := name
  cases kind with
  | rfc822Name =>
    obtain ⟨_, hvalue, rfl⟩ := map_eq_ok_iff.1 h
    obtain ⟨hascii, rfl⟩ := asciiValue_eq_ok_iff.1 hvalue
    exact .rfc822Name hascii
  | dnsName =>
    obtain ⟨_, hvalue, rfl⟩ := map_eq_ok_iff.1 h
    obtain ⟨hascii, rfl⟩ := asciiValue_eq_ok_iff.1 hvalue
    exact .dnsName hascii
  | uri =>
    obtain ⟨_, hvalue, rfl⟩ := map_eq_ok_iff.1 h
    obtain ⟨hascii, rfl⟩ := asciiValue_eq_ok_iff.1 hvalue
    exact .uri hascii
  | ipAddress =>
    simp only [toGeneralName] at h
    split at h
    · rename_i octets hoctets
      cases h
      exact .ipAddress hoctets (Text.length_of_ipAddress? hoctets)
    · cases h
  | directoryName =>
    obtain ⟨dn, hdn, h⟩ := bind_eq_ok_iff.1 h
    obtain ⟨n, hn, h⟩ := bind_eq_ok_iff.1 h
    cases h
    exact .directoryName hdn hn
  | registeredId =>
    simp only [toGeneralName] at h
    split at h
    · rename_i oid hoid
      cases h
      exact .registeredId hoid
    · cases h

/-- An entry that is what its kind asks for stands for a general name, in whatever encoding. -/
lemma exists_standsFor_iff : (∃ g, StandsFor encoding name g) ↔ name.IsEncodable := by
  constructor
  · rintro ⟨g, h⟩
    cases h with
    | rfc822Name h => exact h
    | dnsName h => exact h
    | uri h => exact h
    | ipAddress h _ => exact Option.isSome_of_eq_some h
    | directoryName hdn hn => exact ⟨_, hdn, (DistinguishedName.toName_eq_ok_iff.1 hn).1⟩
    | registeredId h => exact ⟨_, h⟩
  · obtain ⟨kind, value⟩ := name
    intro h
    cases kind with
    | rfc822Name => exact ⟨_, .rfc822Name h⟩
    | dnsName => exact ⟨_, .dnsName h⟩
    | uri => exact ⟨_, .uri h⟩
    | ipAddress =>
      obtain ⟨octets, hoctets⟩ := Option.isSome_iff_exists.1 h
      exact ⟨_, .ipAddress hoctets (Text.length_of_ipAddress? hoctets)⟩
    | directoryName =>
      obtain ⟨dn, hdn, hfit⟩ := h
      exact ⟨_, .directoryName hdn (DistinguishedName.toName_eq_ok_iff.2 ⟨hfit, rfl⟩)⟩
    | registeredId =>
      obtain ⟨oid, hoid⟩ := h
      exact ⟨_, .registeredId hoid⟩

/-- Lists of entries are encoded as lists of what they stand for, in order. -/
lemma toGeneralNames_eq_ok_iff {names : List AltName} {gs : List GeneralName} :
    toGeneralNames encoding names = .ok gs ↔ List.Forall₂ (StandsFor encoding) names gs := by
  simp only [toGeneralNames, mapM_eq_ok_iff, toGeneralName_eq_ok_iff]

/-- Names can be encoded exactly if each of them can. -/
lemma exists_toGeneralNames_iff {names : List AltName} :
    (∃ gs, toGeneralNames encoding names = .ok gs) ↔ ∀ name ∈ names, name.IsEncodable := by
  simp only [toGeneralNames, exists_mapM_eq_ok_iff, toGeneralName_eq_ok_iff, exists_standsFor_iff]

/-- The texts in a name that an alternative name stands for are ASCII. -/
lemma StandsFor.isAscii (h : StandsFor encoding name g) : g.IsAscii := by
  cases h with
  | rfc822Name h => exact h
  | dnsName h => exact h
  | uri h => exact h
  | _ => trivial

end AltName

end CertAuthority
