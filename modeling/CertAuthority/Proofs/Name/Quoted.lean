import CertAuthority.Proofs.Name.Printed

/-!
# Quoted names

Between quotes, with a backslash before each quote and each backslash, a value is read as it is. So lists
of labelled values that are written with quotes are read back, and a quoted name in the quoted form of an
alternative name stands for the same name (`parse_quoted`).
-/

namespace CertAuthority

namespace Text

/-- The text of a list of labels and values, each value in quotes. -/
def enclosedComponents (es : List (String × String)) : String :=
  componentsText (es.map fun e => (e.1, enclose e.2.toList))

/-- An enclosed value is read as it is if it is not empty. -/
lemma nonemptyValue_enclose {label value : String} (h : value ≠ "") :
    nonemptyValue label (enclose value.toList) = .ok value :=
  (nonemptyValue_eq_ok_iff (unescape_enclose _)).2 ⟨by simpa using h, String.ofList_toList⟩

/-- Values in quotes are read one after the other, each with its label. -/
lemma components_enclosed {α : Type} {entry : String → List Char → Except ParseError α}
    {es : List (String × α)} {value : α → String} (hword : ∀ e ∈ es, IsWord e.1)
    (hentry : ∀ e ∈ es, entry e.1 (enclose (value e.2).toList) = .ok e.2) :
    components entry (enclosedComponents (es.map fun e => (e.1, value e.2))) = .ok (es.map Prod.snd) := by
  rw [enclosedComponents, List.map_map, components_text, List.mapM_map, mapM_eq_ok_iff]
  · rw [List.forall₂_map_right_iff, List.forall₂_same]
    exact hentry
  · exact List.forall_mem_map.2 hword
  · exact List.forall_mem_map.2 fun e _ => isPiece_enclose _

end Text

/-- The attribute has a value, and the label stands for its type. -/
def TypedValue.IsLabelled (label : String) (a : TypedValue) : Prop :=
  AttributeType.Labels label a.type ∧ a.value ≠ ""

/-- The alternative name has a value, and the label stands for its kind. -/
def AltName.IsLabelled (label : String) (name : AltName) : Prop :=
  (Text.lowered label, name.kind) ∈ AltNameKind.labels ∧ name.value ≠ ""

namespace DistinguishedName

/-- The quoted form of labelled attributes. -/
def quoted (es : List (String × TypedValue)) : String :=
  Text.enclosedComponents (es.map fun e => (e.1, e.2.value))

/-- A name is read from its labels and enclosed values. -/
lemma parse_quoted_attributes {es : List (String × TypedValue)} (h : ∀ e ∈ es, e.2.IsLabelled e.1) :
    parse (quoted es) = .ok ⟨es.map Prod.snd⟩ := by
  rw [parse_eq_ok_iff, quoted]
  apply Text.components_enclosed
  · exact fun e he => AttributeType.isWord_of_labels (h e he).1
  · exact fun e he => readAttribute_eq_ok_iff.2
      ⟨AttributeType.oid?_of_labels (h e he).1, Text.nonemptyValue_enclose (h e he).2⟩

/-- Only the empty name has an empty text. -/
lemma quoted_ne_empty {es : List (String × TypedValue)} (hne : es ≠ []) (h : ∀ e ∈ es, e.2.IsLabelled e.1) :
    quoted es ≠ "" := by
  intro hempty
  have hparse := parse_quoted_attributes h
  have hnone : parse "" = .ok ⟨[]⟩ := rfl
  rw [hempty, hnone, Except.ok.injEq, mk.injEq, eq_comm, List.map_eq_nil_iff] at hparse
  exact hne hparse

end DistinguishedName

namespace AltName

/-- The quoted form of labelled alternative names. -/
def quoted (es : List (String × AltName)) : String :=
  Text.enclosedComponents (es.map fun e => (e.1, e.2.value))

/-- Alternative names are read from their labels and enclosed values. -/
lemma parse_quoted_names {es : List (String × AltName)} (h : ∀ e ∈ es, e.2.IsLabelled e.1) :
    parse (quoted es) = .ok (es.map Prod.snd) := by
  rw [parse, quoted]
  apply Text.components_enclosed
  · exact fun e he => AltNameKind.isWord_of_mem (h e he).1
  · intro e he
    rw [read, AltNameKind.ofLabel?_of_mem (h e he).1, Text.nonemptyValue_enclose (h e he).2]
    rfl

/-- A name that stands in a directory name is the name that its text is read as. -/
lemma toGeneralName_directoryName (encoding : NameEncoding) (text : String) :
    toGeneralName encoding ⟨.directoryName, text⟩ =
      GeneralName.directoryName <$> (DistinguishedName.parse text >>= DistinguishedName.toName encoding) := by
  rw [toGeneralName]
  cases DistinguishedName.parse text with
  | error e => rfl
  | ok dn =>
    rw [ok_bind, ok_bind]
    cases dn.toName encoding <;> rfl

/-- The text of the empty name is no value of an alternative name. -/
lemma parse_quoted_nil {label : String} (h : (Text.lowered label, .directoryName) ∈ AltNameKind.labels) :
    parse (quoted [(label, ⟨.directoryName, DistinguishedName.quoted []⟩)]) = .error (.emptyValue label) := by
  have hempty : Text.nonemptyValue label (Text.enclose []) = .error (.emptyValue label) := by
    rw [Text.nonemptyValue, Text.unescape_enclose]
    rfl
  have hread : read label (Text.enclose (DistinguishedName.quoted []).toList) = .error (.emptyValue label) := by
    have hnil : (DistinguishedName.quoted []).toList = [] := rfl
    rw [read, AltNameKind.ofLabel?_of_mem h, hnil, hempty]
    rfl
  rw [parse, quoted, Text.enclosedComponents, Text.components_text]
  · simp only [List.map_cons, List.map_nil, List.mapM_cons, hread]
    rfl
  · exact fun e he => by
      rw [List.mem_singleton.1 he]
      exact AltNameKind.isWord_of_mem h
  · exact fun e he => by
      rw [List.mem_singleton.1 he]
      exact Text.isPiece_enclose _

/-- Labelled values in quotes are read back as they are, those of a distinguished name and those of
alternative names. The quoted form of a distinguished name with attributes may be quoted once more as a
directory name, and stands for the same name there. Without attributes it is empty and refused. -/
theorem parse_quoted :
    (∀ es : List (String × TypedValue), (∀ e ∈ es, e.2.IsLabelled e.1) →
      DistinguishedName.parse (DistinguishedName.quoted es) = .ok ⟨es.map Prod.snd⟩) ∧
    (∀ es : List (String × AltName), (∀ e ∈ es, e.2.IsLabelled e.1) →
      parse (quoted es) = .ok (es.map Prod.snd)) ∧
    (∀ (es : List (String × TypedValue)) (label : String) (before after : List (String × AltName)),
      es ≠ [] → (∀ e ∈ es, e.2.IsLabelled e.1) →
      (Text.lowered label, .directoryName) ∈ AltNameKind.labels →
      (∀ e ∈ before ++ after, e.2.IsLabelled e.1) →
      parse (quoted (before ++ (label, ⟨.directoryName, DistinguishedName.quoted es⟩) :: after)) =
          .ok (before.map Prod.snd ++ ⟨.directoryName, DistinguishedName.quoted es⟩ :: after.map Prod.snd) ∧
        ∀ encoding, toGeneralName encoding ⟨.directoryName, DistinguishedName.quoted es⟩ =
          GeneralName.directoryName <$>
            (DistinguishedName.parse (DistinguishedName.quoted es) >>= DistinguishedName.toName encoding)) ∧
    (∀ label, (Text.lowered label, .directoryName) ∈ AltNameKind.labels →
      parse (quoted [(label, ⟨.directoryName, DistinguishedName.quoted []⟩)]) =
        .error (.emptyValue label)) := by
  refine ⟨fun es => DistinguishedName.parse_quoted_attributes, fun es => parse_quoted_names, ?_, ?_⟩
  · intro es label before after hne hes hlabel hothers
    refine ⟨?_, fun encoding => toGeneralName_directoryName encoding _⟩
    have hentry : (⟨.directoryName, DistinguishedName.quoted es⟩ : AltName).IsLabelled label :=
      ⟨hlabel, DistinguishedName.quoted_ne_empty hne hes⟩
    rw [parse_quoted_names, List.map_append, List.map_cons]
    intro e he
    rw [List.mem_append, List.mem_cons] at he
    rcases he with he | rfl | he
    · exact hothers e (List.mem_append_left _ he)
    · exact hentry
    · exact hothers e (List.mem_append_right _ he)
  · exact fun label => parse_quoted_nil

/-- Attributes whose values hold separators, quotes and blanks. -/
def sampleEntries : List (String × TypedValue) :=
  [("cn", ⟨.commonName, " a,\"b\\"⟩), ("1.2.3.4", ⟨⟨[42, 3, 4], rfl⟩, "="⟩)]

/-- Quoted attributes are read, and so is their text as the value of a directory name that is quoted again. -/
theorem sample_quoted :
    (∀ e ∈ sampleEntries, e.2.IsLabelled e.1) ∧
      DistinguishedName.parse (DistinguishedName.quoted sampleEntries) = .ok ⟨sampleEntries.map Prod.snd⟩ ∧
      parse (quoted [("dns", ⟨.dnsName, "a\""⟩),
          ("DirName", ⟨.directoryName, DistinguishedName.quoted sampleEntries⟩)]) =
        .ok [⟨.dnsName, "a\""⟩, ⟨.directoryName, DistinguishedName.quoted sampleEntries⟩] := by
  have hcn : AttributeType.Labels "cn" .commonName :=
    @AttributeType.Labels.name "cn" ⟨["CN", "COMMONNAME"], .commonName, .directory⟩
      (by decide +kernel) (by decide +kernel)
  have hdotted : AttributeType.Labels "1.2.3.4" ⟨[42, 3, 4], rfl⟩ :=
    @AttributeType.Labels.dotted "" "1.2.3.4" ⟨[42, 3, 4], rfl⟩ (by decide +kernel) (by decide +kernel)
  have hes : ∀ e ∈ sampleEntries, e.2.IsLabelled e.1 := by
    simp only [sampleEntries, List.forall_mem_cons, TypedValue.IsLabelled]
    exact ⟨⟨hcn, by decide⟩, ⟨hdotted, by decide⟩, List.forall_mem_nil _⟩
  have hdns : ∀ e ∈ [("dns", AltName.mk .dnsName "a\"")] ++ [], e.2.IsLabelled e.1 := by
    simp only [List.append_nil, List.forall_mem_cons, AltName.IsLabelled]
    exact ⟨⟨by decide +kernel, by decide⟩, List.forall_mem_nil _⟩
  have hne : sampleEntries ≠ [] := by simp [sampleEntries]
  exact ⟨hes, parse_quoted.1 _ hes, (parse_quoted.2.2.1 _ "DirName" _ [] hne hes (by decide +kernel) hdns).1⟩

/-- The empty name has a text that is read, but no directory name holds it. -/
theorem parse_quoted_nil_ne :
    DistinguishedName.parse (DistinguishedName.quoted []) = .ok ⟨[]⟩ ∧
      (⟨[]⟩ : DistinguishedName).toName .utf8 = .ok ⟨[]⟩ ∧
      parse (quoted [("directoryName", ⟨.directoryName, DistinguishedName.quoted []⟩)]) =
        .error (.emptyValue "directoryName") := by
  refine ⟨rfl, rfl, ?_⟩
  decide +kernel

end AltName

end CertAuthority
